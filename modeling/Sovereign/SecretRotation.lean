import Sovereign.Json
import Sovereign.Startup

/-! Rotation of the managed secrets in a running process: how the providers report what the
backends answer, and what `refresh_managed_secrets` leaves in the settings. -/
namespace Sovereign.Startup
open Sovereign

/-! The providers' `get`, as `get_optional` hands it on: `none` is `SecretNotFoundError`, an
error is any other exception. -/

inductive SecretValueReply where
  /-- `ClientError` or `BotoCoreError` -/
  | failed (text : String)
  | secretString (value : String)
  /-- the decoded bytes of `SecretBinary`, or why they cannot be decoded -/
  | secretBinary (decoded : Except String String)
  | neither

def secretsManagerGet : SecretValueReply → Except String (Option String)
  | .failed _ => .ok none
  | .secretString value => .ok (some value)
  | .secretBinary decoded => decoded.map some
  | .neither => .ok none

inductive ParameterReply where
  | failed (text : String)
  | parameter (value : Option String)

def parameterStoreGet : ParameterReply → Except String (Option String)
  | .failed _ => .ok none
  | .parameter value => .ok value

/-- The answer of Vault; `none` is a body that is not JSON. -/
inductive VaultReply where
  | unreachable (text : String)
  | answered (status : Nat) (body : Option Json)

/-- `doc.get(name, {})`, which only a dict has. -/
def getOrEmpty (name : String) : Json → Except String Json
  | .obj members => .ok ((Json.lookup name members).getD (.obj []))
  | _ => .error "object has no attribute 'get'"

def vaultGet (pyStr : Json → String) : VaultReply → Except String (Option String)
  | .unreachable _ => .ok none
  | .answered status body =>
    if status≠200 then .ok none
    else
      match body with
      | none => .error "Expecting value"
      | some doc =>
        (getOrEmpty "data" doc).bind fun outer =>
        (getOrEmpty "data" outer).bind fun data =>
        match data with
        | .obj members =>
          .ok (((Json.lookup "value" members).filter fun v => decide (v≠.null)).map pyStr)
        | _ => .error "object has no attribute 'get'"

structure Site where
  installed : Option Fetch := none
  idPrefix : String := ""
  secretsManager : String → SecretValueReply := fun _ => .neither
  parameterStore : String → ParameterReply := fun _ => .parameter none
  vault : String → VaultReply := fun _ => .answered 404 none
  pyStr : Json → String

def Site.backends (site : Site) : Backends :=
  { installed := site.installed
    secretsManager := fun name => secretsManagerGet (site.secretsManager (site.idPrefix ++ name))
    parameterStore := fun name => parameterStoreGet (site.parameterStore (site.idPrefix ++ name))
    vault := fun name => vaultGet site.pyStr (site.vault (site.idPrefix ++ name)) }

/-- The loop of `_resolve_managed_secrets` on settings that are in use: what it has assigned
stays when a later fetch raises. -/
def overrideInPlace (fetch : Fetch) : List Secret → Settings → Settings × Option String
  | [], s => (s, none)
  | secret::rest, s =>
    match fetch secret.name with
    | .error e => (s, some e)
    | .ok none => overrideInPlace fetch rest s
    | .ok (some v) => overrideInPlace fetch rest (secret.set s v)

/-- The settings afterwards, and the exception if one is raised. A rotating provider has been
expired first, so that it reads each secret from its backend. -/
def refreshManagedSecrets (b : Backends) (s : Settings) : Settings × Option String :=
  if lowerIn (providerKind s.secretsProvider) ["env"] then (s, none)
  else
    match providerForSettings b s.secretsProvider with
    | .error e => (s, some e)
    | .ok fetch => overrideInPlace fetch managedSecretFields s

/-- At start-up the settings are new, and an exception throws them away. -/
theorem override_inPlace (fetch : Fetch) (list : List Secret) (s : Settings) :
    override fetch list s =
      match overrideInPlace fetch list s with
      | (s', none) => .ok s'
      | (_, some e) => .error e := by
  induction list generalizing s with
  | nil => rfl
  | cons secret rest ih =>
    simp only [override, overrideInPlace]
    cases fetch secret.name with
    | error e => rfl
    | ok v =>
      cases v with
      | none => exact ih s
      | some v => exact ih _

def reached (fetch : Fetch) (list : List Secret) : List Secret :=
  list.takeWhile fun secret => (fetch secret.name).isOk

def Delivered (fetch : Fetch) (secret : Secret) (v : String) : Prop :=
  secret∈reached fetch managedSecretFields ∧ fetch secret.name=.ok (some v)

theorem mem_reached_cons {fetch : Fetch} {a secret : Secret} {rest : List Secret} :
    a∈reached fetch (secret::rest) ↔
      (fetch secret.name).isOk=true ∧ (a=secret ∨ a∈reached fetch rest) := by
  unfold reached
  rw [List.takeWhile_cons]
  split
  · next h => simp [h]
  · next h => simp [h]

/-- What comes is in force afterwards, whatever is fetched later. -/
theorem get_inPlace_delivered {fetch : Fetch} {a : Secret} {v : String}
    (hv : fetch a.name=.ok (some v)) {list : List Secret} (s : Settings)
    (h : a∈reached fetch list ∨ a.get s=v) : a.get (overrideInPlace fetch list s).1=v := by
  induction list generalizing s with
  | nil => exact h.resolve_left List.not_mem_nil
  | cons secret rest ih =>
    rw [mem_reached_cons] at h
    simp only [overrideInPlace]
    cases hf : fetch secret.name with
    | error e =>
      rw [hf] at h
      refine h.resolve_left fun hr => ?_
      cases hr.1
    | ok w =>
      have hrest : a=secret ∨ a∈reached fetch rest ∨ a.get s=v := by
        obtain hr | hs := h
        · exact hr.2.imp_right .inl
        · exact .inr (.inr hs)
      obtain rfl | hrest := hrest
      · obtain rfl : some v=w := Except.ok.inj (hv.symm.trans hf)
        exact ih _ (.inr (by rw [Secret.get_set, if_pos rfl]))
      · cases w with
        | none => exact ih s hrest
        | some w =>
          refine ih _ (hrest.imp_right fun hs => ?_)
          rw [Secret.get_set]
          split
          · next he =>
            subst he
            exact Option.some.inj (Except.ok.inj (hf.symm.trans hv))
          · exact hs

theorem get_inPlace_kept {fetch : Fetch} {a : Secret} {list : List Secret} (s : Settings)
    (h : a∈reached fetch list → ∀ v, fetch a.name≠.ok (some v)) :
    a.get (overrideInPlace fetch list s).1=a.get s := by
  induction list generalizing s with
  | nil => rfl
  | cons secret rest ih =>
    simp only [overrideInPlace]
    cases hf : fetch secret.name with
    | error e => rfl
    | ok w =>
      have hok : (fetch secret.name).isOk=true := by
        rw [hf]
        rfl
      have hrest : a∈reached fetch rest → ∀ v, fetch a.name≠.ok (some v) := fun hr =>
        h (mem_reached_cons.mpr ⟨hok, .inr hr⟩)
      cases w with
      | none => exact ih s hrest
      | some w =>
        have hne : a≠secret := by
          intro he
          subst he
          exact h (mem_reached_cons.mpr ⟨hok, .inl rfl⟩) w hf
        dsimp only
        rw [ih _ hrest, Secret.get_set, if_neg hne]

theorem get_delivered {fetch : Fetch} {secret : Secret} {v : String} (s : Settings)
    (h : Delivered fetch secret v) :
    secret.get (overrideInPlace fetch managedSecretFields s).1=v :=
  get_inPlace_delivered h.2 s (.inl h.1)

theorem get_kept {fetch : Fetch} {secret : Secret} (s : Settings)
    (h : ∀ v, ¬ Delivered fetch secret v) :
    secret.get (overrideInPlace fetch managedSecretFields s).1=secret.get s :=
  get_inPlace_kept s fun hr v hv => h v ⟨hr, hv⟩

/-- All fields as before, or every secret of the backend in force. -/
def AllOrNothing (store : String → Option String) (before after : Settings) : Prop :=
  (∀ secret : Secret, secret.get after=secret.get before) ∨
    ∀ (secret : Secret) v, store secret.name=some v → secret.get after=v

def Truthful (store : String → Option String) (fetch : Fetch) : Prop :=
  ∀ name v, fetch name=.ok (some v) → store name=some v

/-- The managed provider that a refresh asks. -/
def asked (b : Backends) (s : Settings) : Option Fetch :=
  if lowerIn (providerKind s.secretsProvider) ["env"] then none
  else (providerForSettings b s.secretsProvider).toOption

def NothingNew (fetch : Fetch) (s : Settings) : Prop :=
  ∀ secret v, Delivered fetch secret v → secret.get s=v

def NothingMissed (store : String → Option String) (fetch : Fetch) (s : Settings) : Prop :=
  ∀ (secret : Secret) v, store secret.name=some v → (∀ w, ¬ Delivered fetch secret w) →
    secret.get s=v

theorem allOrNothing_inPlace {store : String → Option String} {fetch : Fetch} (s : Settings)
    (ht : Truthful store fetch) :
    AllOrNothing store s (overrideInPlace fetch managedSecretFields s).1 ↔
      NothingNew fetch s ∨ NothingMissed store fetch s := by
  refine or_congr ?_ ?_
  · constructor
    · intro h secret v hd
      rw [← h secret, get_delivered s hd]
    · intro h secret
      by_cases hd : ∃ v, Delivered fetch secret v
      · obtain ⟨v, hv⟩ := hd
        rw [get_delivered s hv, h secret v hv]
      · exact get_kept s (not_exists.mp hd)
  · constructor
    · intro h secret v hv hd
      rw [← get_kept s hd]
      exact h secret v hv
    · intro h secret v hv
      by_cases hd : ∃ w, Delivered fetch secret w
      · obtain ⟨w, hw⟩ := hd
        rw [get_delivered s hw]
        exact Option.some.inj ((ht _ _ hw.2).symm.trans hv)
      · rw [get_kept s (not_exists.mp hd)]
        exact h secret v hv (not_exists.mp hd)

/-- A refresh is all or nothing exactly when nothing that comes is new or nothing that is new
stays away. -/
theorem rotation_all_or_nothing_iff (site : Site) (store : String → Option String)
    (s : Settings)
    (ht : ∀ fetch, asked site.backends s=some fetch → Truthful store fetch) :
    AllOrNothing store s (refreshManagedSecrets site.backends s).1 ↔
      ∀ fetch, asked site.backends s=some fetch →
        NothingNew fetch s ∨ NothingMissed store fetch s := by
  unfold refreshManagedSecrets
  unfold asked at ht ⊢
  split
  · next henv =>
    refine ⟨fun _ fetch h => ?_, fun _ => .inl fun _ => rfl⟩
    cases h
  · next henv =>
    rw [if_neg henv] at ht
    cases hp : providerForSettings site.backends s.secretsProvider with
    | error e =>
      refine ⟨fun _ fetch h => ?_, fun _ => .inl fun _ => rfl⟩
      cases h
    | ok fetch =>
      rw [hp] at ht
      rw [allOrNothing_inPlace s (ht fetch rfl)]
      constructor
      · intro h fetch' he
        cases he
        exact h
      · intro h
        exact h fetch rfl

/-! A key pair is rotated in Vault. -/

def held (value : String) : VaultReply :=
  .answered 200 (some (.obj [("data", .obj [("data", .obj [("value", .str value)])])]))

def rotatedStore (name : String) : Option String :=
  [("s3-access-key", "access-2"), ("s3-secret-key", "secret-2")].lookup name

def rotatedVault (reply : VaultReply) : Site :=
  { vault := fun id => ([("s3-access-key", held "access-2"),
      ("s3-secret-key", reply)].lookup id).getD (.answered 404 none)
    pyStr := fun
      | .str s => s
      | _ => "" }

def runningSettings : Settings :=
  { load (productionEnv none) with s3AccessKey := "access-1", s3SecretKey := "secret-1" }

theorem rotation_all_or_nothing_whole :
    AllOrNothing rotatedStore runningSettings
      (refreshManagedSecrets (rotatedVault (held "secret-2")).backends runningSettings).1 := by
  have hasked : asked (rotatedVault (held "secret-2")).backends runningSettings =
      some (rotatedVault (held "secret-2")).backends.vault := rfl
  refine (rotation_all_or_nothing_iff (rotatedVault (held "secret-2")) rotatedStore runningSettings
    ?_).mpr ?_
  · intro fetch hf name v hv
    cases hasked.symm.trans hf
    by_cases ha : name="s3-access-key"
    · subst ha
      cases hv
      rfl
    · by_cases hs : name="s3-secret-key"
      · subst hs
        cases hv
        rfl
      · have hnone : (rotatedVault (held "secret-2")).backends.vault name=.ok none := by
          simp [Site.backends, rotatedVault, List.lookup_cons, beq_eq_false_iff_ne.mpr ha,
            beq_eq_false_iff_ne.mpr hs, vaultGet]
        cases hnone.symm.trans hv
  · intro fetch hf
    cases hasked.symm.trans hf
    right
    intro secret v hv hd
    cases secret with
    | s3AccessKey => exact absurd ⟨by decide +kernel, rfl⟩ (hd "access-2")
    | s3SecretKey => exact absurd ⟨by decide +kernel, rfl⟩ (hd "secret-2")
    | _ => cases hv

/-- The secret key cannot be reached: the new access key is in force with the old secret key. -/
theorem half_rotated :
    (refreshManagedSecrets (rotatedVault (.unreachable "timed out")).backends
      runningSettings).2=none ∧
    (refreshManagedSecrets (rotatedVault (.unreachable "timed out")).backends
      runningSettings).1.s3AccessKey="access-2" ∧
    (refreshManagedSecrets (rotatedVault (.unreachable "timed out")).backends
      runningSettings).1.s3SecretKey="secret-1" ∧
    ¬ AllOrNothing rotatedStore runningSettings
      (refreshManagedSecrets (rotatedVault (.unreachable "timed out")).backends
        runningSettings).1 := by
  refine ⟨by decide +kernel, by decide +kernel, by decide +kernel, ?_⟩
  intro h
  obtain h | h := h
  · have hkey := h .s3AccessKey
    revert hkey
    decide +kernel
  · have hkey := h .s3SecretKey "secret-2" rfl
    revert hkey
    decide +kernel

end Sovereign.Startup
