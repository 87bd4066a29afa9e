import Sovereign.AuditChain

/-! Checking a stored event against its hash and its signature. The hash is taken over the
event as it was posted, with a time stamp in microseconds; the column of the table keeps
milliseconds, and its metadata is a text with sorted keys. -/
namespace Sovereign.AuditService
open Sovereign

/-- A time stamp: its text down to the second, the microseconds, and the text of its
zone. -/
structure Timestamp where
  seconds : String
  microsecond : Nat
  zone : String := "Z"
  microsecond_lt : microsecond < 1000000 := by decide

namespace Timestamp

def sixDigits (n : Nat) : List Char :=
  [Nat.digitChar (n/100000%10), Nat.digitChar (n/10000%10), Nat.digitChar (n/1000%10),
    Nat.digitChar (n/100%10), Nat.digitChar (n/10%10), Nat.digitChar (n%10)]

/-- No fraction is written for whole seconds, else all six digits. -/
def fraction (n : Nat) : List Char := if n=0 then [] else '.'::sixDigits n

def json (t : Timestamp) : String :=
  String.ofList (t.seconds.toList++fraction t.microsecond++t.zone.toList)

/-- What a `DateTime64(3)` column stores and returns. -/
def toMillis (t : Timestamp) : Timestamp where
  seconds := t.seconds
  microsecond := t.microsecond/1000*1000
  zone := t.zone
  microsecond_lt := by
    have h := t.microsecond_lt
    omega

def Whole (t : Timestamp) : Prop := t.microsecond%1000=0

instance (t : Timestamp) : Decidable t.Whole := inferInstanceAs (Decidable (_=0))

theorem digitChar_inj : ∀ a < 10, ∀ b < 10, Nat.digitChar a=Nat.digitChar b → a=b := by decide

theorem sixDigits_inj {n m : Nat} (hn : n < 1000000) (hm : m < 1000000)
    (h : sixDigits n=sixDigits m) : n=m := by
  have hdigit : ∀ a b, Nat.digitChar (a%10)=Nat.digitChar (b%10) → a%10=b%10 := fun a b =>
    digitChar_inj (a%10) (Nat.mod_lt a (by decide)) (b%10) (Nat.mod_lt b (by decide))
  simp only [sixDigits, List.cons.injEq, and_true] at h
  obtain ⟨h5, h4, h3, h2, h1, h0⟩ := h
  have h5 := hdigit _ _ h5
  have h4 := hdigit _ _ h4
  have h3 := hdigit _ _ h3
  have h2 := hdigit _ _ h2
  have h1 := hdigit _ _ h1
  have h0 := hdigit _ _ h0
  omega

theorem fraction_inj {n m : Nat} (hn : n < 1000000) (hm : m < 1000000)
    (h : fraction n=fraction m) : n=m := by
  simp only [fraction] at h
  by_cases hn0 : n=0
  · by_cases hm0 : m=0
    · omega
    · simp [hn0, hm0] at h
  · by_cases hm0 : m=0
    · simp [hn0, hm0] at h
    · rw [if_neg hn0, if_neg hm0] at h
      exact sixDigits_inj hn hm (List.cons.inj h).2

/-- The text comes back from the column exactly for whole milliseconds. -/
theorem json_toMillis_iff (t : Timestamp) : t.toMillis.json=t.json ↔ t.Whole := by
  have hlt := t.microsecond_lt
  have hmillis := t.toMillis.microsecond_lt
  have hwhole : t.toMillis.microsecond=t.microsecond ↔ t.Whole := by
    simp only [toMillis, Whole]
    omega
  rw [← hwhole]
  constructor
  · intro h
    have hlist : t.seconds.toList++fraction t.toMillis.microsecond++t.zone.toList =
        t.seconds.toList++fraction t.microsecond++t.zone.toList := String.ofList_injective h
    have hfraction := List.append_cancel_left (List.append_cancel_right hlist)
    exact fraction_inj hmillis hlt hfraction
  · intro h
    simp only [json, h]
    rfl

end Timestamp

/-- `GET /events` on a row inserted with the time stamp: the metadata comes back with its
keys sorted, every other column as it was. -/
def returnedEvent (t : Timestamp) (r : Row) : AuditEvent :=
  { eventFromRow r with
    ts := t.toMillis.json
    metadata := (Json.sortMembers r.metadata).insertionSort fun a b => a.1≤b.1 }

def stamped (t : Timestamp) (e : AuditEvent) : AuditEvent := { e with ts := t.json }

def atMillis (t : Timestamp) (e : AuditEvent) : AuditEvent := { e with ts := t.toMillis.json }

section Payloads
variable {t : Timestamp} {e e' : AuditEvent}

theorem sortMembers_returned (ms : List (String × Json)) :
    ((Json.sortMembers ((Json.sortMembers ms).insertionSort fun a b => a.1≤b.1)).insertionSort
      fun a b => a.1≤b.1)=(Json.sortMembers ms).insertionSort fun a b => a.1≤b.1 := by
  have h := Json.sortKeys_sortKeys (.obj ms)
  simpa only [Json.sortKeys, Json.obj.injEq] using h

theorem payload_returned (h : present e.eventHash=true) :
    canonicalEventPayload (returnedEvent t (row e))=canonicalEventPayload (atMillis t e) ∧
    canonicalSigningPayload (returnedEvent t (row e))=canonicalSigningPayload (atMillis t e) := by
  obtain ⟨ts, tenantId, actor, action, resource, decision, metadata, previousHash, eventHash,
    signatureKeyId, signature⟩ := e
  cases eventHash with
  | none => cases h
  | some hash =>
    simp only [canonicalEventPayload, canonicalSigningPayload, payloadMembers, returnedEvent, row,
      eventFromRow, atMillis, Json.sortKeys, List.cons_append, List.nil_append, Json.sortMembers,
      Option.getD_some, sortMembers_returned, and_self]

theorem ts_of_payload (h : canonicalEventPayload e=canonicalEventPayload e') : e.ts=e'.ts := by
  have hm : ("ts", Json.str e.ts)∈Json.sortMembers (payloadMembers e) := by
    simp [payloadMembers, Json.sortMembers, Json.sortKeys]
  have hm' : ("ts", Json.str e.ts)∈Json.sortMembers (payloadMembers e') := mem_of_sortKeys_eq h hm
  simpa [payloadMembers, Json.sortMembers, Json.sortKeys] using hm'

/-- The payload comes back exactly for whole milliseconds. -/
theorem payload_atMillis_iff (h : e.ts=t.json) :
    canonicalEventPayload (atMillis t e)=canonicalEventPayload e ↔ t.Whole := by
  rw [← Timestamp.json_toMillis_iff, ← h]
  constructor
  · intro hp
    exact ts_of_payload hp
  · intro hts
    rw [atMillis, hts]

end Payloads

section Verify
variable (k : Signer) (verify : Json → String → Bool)

/-- The hash is that of the event's payload, and a signature, if there is one, verifies over
the event. -/
structure Verifies (x : AuditEvent) : Prop where
  hash : x.eventHash=some (k.sha256 (canonicalEventPayload x)).1
  signature : ∀ s, x.signature=some s → s≠"" → verify (canonicalSigningPayload x) s=true

def Signer.chained (head : Option String) (t : Timestamp) (e : AuditEvent) : AuditEvent :=
  (ensureChained k.config head (stamped t e)).1

/-- What a posted event and its time stamp must be for the stored row to verify. Two ways
out that a sound digest and a sound signature do not have are named: a collision, and a
signature over one document that verifies over another. -/
structure Restorable (head : Option String) (t : Timestamp) (e : AuditEvent) : Prop where
  hashed : present e.eventHash=true →
    e.eventHash=some (k.sha256 (canonicalEventPayload (atMillis t e))).1
  chained : present e.eventHash=false → ¬ t.Whole →
    k.sha256 (canonicalEventPayload (atMillis t (k.chained head t e))) =
      k.sha256 (canonicalEventPayload (k.chained head t e))
  signed : ∀ s, e.signature=some s → s≠"" →
    verify (canonicalSigningPayload (atMillis t (k.chained head t e))) s=true
  unsigned : present e.signature=false → ¬ t.Whole → ∀ key, k.privateKey=some key →
    verify (canonicalSigningPayload (atMillis t (k.chained head t e)))
      (key (canonicalSigningPayload (k.chained head t e))).1=true

variable {k verify} {head : Option String} {t : Timestamp} {e e' : AuditEvent}

theorem chained_ts : (k.chained head t e).ts=t.json ∧ (k.chained head t e).signature=e.signature := by
  rw [Signer.chained, ensureChained]
  split
  · exact ⟨rfl, rfl⟩
  · exact ⟨rfl, rfl⟩

/-- What a signed event's signature has to pass: the one it came with, or the one of the
key. -/
theorem signature_passes_iff {V : String → Prop} {c : AuditEvent}
    (h : signAuditEvent k.config c=some e') :
    (∀ s, e'.signature=some s → s≠"" → V s) ↔
      (∀ s, c.signature=some s → s≠"" → V s) ∧
      (present c.signature=false → ∀ key, k.privateKey=some key →
        V (key (canonicalSigningPayload c)).1) := by
  have hnone : present c.signature=false → ∀ s, c.signature=some s → s≠"" → V s := by
    intro hp s hs hne
    rw [hs] at hp
    simp [present, hne] at hp
  rw [signAuditEvent] at h
  cases hp : present c.signature with
  | true =>
    rw [if_pos hp] at h
    cases h
    simp
  | false =>
    rw [if_neg (by simp [hp])] at h
    cases hk : k.privateKey with
    | none =>
      have hsign : k.config.sign=none := by simp [Signer.config, hk]
      rw [hsign] at h
      dsimp only at h
      split at h
      · cases h
      · cases h
        simp
    | some key =>
      have hsign : k.config.sign=some fun e => key (canonicalSigningPayload e) := by
        simp [Signer.config, hk]
      rw [hsign] at h
      cases h
      constructor
      · intro hV
        refine ⟨hnone hp, fun _ key' hkey => ?_⟩
        cases hkey
        exact hV _ rfl (key (canonicalSigningPayload c)).2
      · intro h s hs _
        obtain ⟨_, hV⟩ := h
        cases hs
        exact hV rfl key rfl

theorem hash_restores_iff :
    (k.chained head t e).eventHash =
        some (k.sha256 (canonicalEventPayload (atMillis t (k.chained head t e)))).1 ↔
      (present e.eventHash=true →
        e.eventHash=some (k.sha256 (canonicalEventPayload (atMillis t e))).1) ∧
      (present e.eventHash=false → ¬ t.Whole →
        k.sha256 (canonicalEventPayload (atMillis t (k.chained head t e))) =
          k.sha256 (canonicalEventPayload (k.chained head t e))) := by
  cases hp : present e.eventHash with
  | true =>
    have hp : present (stamped t e).eventHash=true := hp
    have hc : k.chained head t e=stamped t e := by
      rw [Signer.chained, ensureChained_hashed hp]
    rw [hc]
    constructor
    · intro h
      exact ⟨fun _ => h, fun hf => by cases hf⟩
    · intro h
      exact h.1 rfl
  | false =>
    have hp : present (stamped t e).eventHash=false := hp
    have hc : k.chained head t e=chainEvent k.config head (stamped t e) := by
      rw [Signer.chained, ensureChained_plain hp]
    have hhash : (k.chained head t e).eventHash =
        some (k.sha256 (canonicalEventPayload (k.chained head t e))).1 := by
      rw [hc]
      rfl
    rw [hhash]
    constructor
    · intro h
      exact ⟨fun hf => (by cases hf), fun _ _ => Subtype.ext (Option.some.inj h).symm⟩
    · intro ⟨_, h⟩
      by_cases hw : t.Whole
      · rw [(payload_atMillis_iff chained_ts.1).mpr hw]
      · rw [h rfl hw]

/-- A row that was accepted, stored and returned verifies exactly when the posted event was
restorable: posted in whole milliseconds, and without a hash or a signature of its own or
with the right ones. -/
theorem stored_row_verifies_iff (k : Signer) (verify : Json → String → Bool)
    (hverify : ∀ key, k.privateKey=some key → ∀ doc, verify doc (key doc).1=true)
    (head : Option String) (t : Timestamp) (e e' : AuditEvent) (last : Option String)
    (hp : prepareEvent k.config head (stamped t e)=(some e', last)) :
    Verifies k verify (returnedEvent t (row e')) ↔ Restorable k verify head t e := by
  have hsign : signAuditEvent k.config (k.chained head t e)=some e' := congrArg Prod.fst hp
  have hprepared : Prepared k.config e' := prepareEvent_prepared hp
  obtain ⟨hpayload, hsigning⟩ := payload_returned (t := t) hprepared.chained
  obtain ⟨keyId, signature, heq⟩ := signAuditEvent_eq hsign
  have hmillis : canonicalEventPayload (atMillis t e')=
        canonicalEventPayload (atMillis t (k.chained head t e)) ∧
      canonicalSigningPayload (atMillis t e')=
        canonicalSigningPayload (atMillis t (k.chained head t e)) := by
    rw [heq]
    exact ⟨rfl, rfl⟩
  have hback : (returnedEvent t (row e')).eventHash=(k.chained head t e).eventHash := by
    calc
      (returnedEvent t (row e')).eventHash=(eventFromRow (row e')).eventHash := rfl
      _=e'.eventHash := by rw [hprepared.eventFromRow_row]
      _=(k.chained head t e).eventHash := by rw [heq]
  have hiff : Verifies k verify (returnedEvent t (row e')) ↔
      (k.chained head t e).eventHash =
        some (k.sha256 (canonicalEventPayload (atMillis t (k.chained head t e)))).1 ∧
      ∀ s, e'.signature=some s → s≠"" →
        verify (canonicalSigningPayload (atMillis t (k.chained head t e))) s=true := by
    rw [← hmillis.1, ← hmillis.2, ← hpayload, ← hsigning, ← hback]
    exact ⟨fun h => ⟨h.hash, h.signature⟩, fun h => ⟨h.1, h.2⟩⟩
  rw [hiff, hash_restores_iff, signature_passes_iff hsign, chained_ts.2]
  constructor
  · intro ⟨⟨hhashed, hchained⟩, hsigned, hunsigned⟩
    exact ⟨hhashed, hchained, hsigned, fun hnone _ => hunsigned hnone⟩
  · intro h
    refine ⟨⟨h.hashed, h.chained⟩, h.signed, fun hnone key hkey => ?_⟩
    by_cases hw : t.Whole
    · have hsame : atMillis t (k.chained head t e)=k.chained head t e := by
        rw [atMillis, (Timestamp.json_toMillis_iff t).mpr hw, ← chained_ts.1]
      rw [hsame]
      exact hverify key hkey _
    · exact h.unsigned hnone hw key hkey

def stampSigner : Signer where
  sha256 := fun doc => ⟨"sha256:" ++ (match Json.get? "ts" doc with
    | some (.str s) => s
    | _ => ""), by simp⟩
  privateKey := some sampleKey

def sampleVerify (_ : Json) (s : String) : Bool := decide (s="signature")

def provisioned : AuditEvent :=
  { ts := "", action := "instance.provisioned", resource := "lb-1"
    metadata := [("version", .num 2), ("plan", .str "small")] }

def taken (t : Timestamp) : AuditEvent :=
  ((prepareEvent stampSigner.config none (stamped t provisioned)).1).getD provisioned

theorem stored_row_verifies_millis :
    Verifies stampSigner sampleVerify (returnedEvent
      { seconds := "2026-01-01T00:00:00", microsecond := 123000 }
      (row (taken { seconds := "2026-01-01T00:00:00", microsecond := 123000 }))) := by
  refine (stored_row_verifies_iff stampSigner sampleVerify ?_ none
    { seconds := "2026-01-01T00:00:00", microsecond := 123000 } provisioned _
    (taken { seconds := "2026-01-01T00:00:00", microsecond := 123000 }).eventHash rfl).mpr ?_
  · intro key hkey doc
    cases hkey
    rfl
  · refine ⟨fun h => (by cases h), fun _ h => absurd rfl h, fun s h => (by cases h),
      fun _ h => absurd rfl h⟩

/-- Microseconds are hashed and signed, milliseconds come back. -/
theorem microseconds_do_not_verify :
    prepareEvent stampSigner.config none
      (stamped { seconds := "2026-01-01T00:00:00", microsecond := 123456 } provisioned) =
      (some (taken { seconds := "2026-01-01T00:00:00", microsecond := 123456 }),
        some "sha256:2026-01-01T00:00:00.123456Z") ∧
    ¬ Verifies stampSigner sampleVerify (returnedEvent
      { seconds := "2026-01-01T00:00:00", microsecond := 123456 }
      (row (taken { seconds := "2026-01-01T00:00:00", microsecond := 123456 }))) := by
  refine ⟨by decide +kernel, fun h => ?_⟩
  have hhash := h.hash
  revert hhash
  decide +kernel

end Verify
end Sovereign.AuditService
