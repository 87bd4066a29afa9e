import Sovereign.Text
import Sovereign.Trace
import Mathlib.Algebra.Order.Ring.Rat
import Mathlib.Data.List.TakeWhile

/-! `OidcVerifier._fetch_jwks_data`: the key set of the identity provider and the lifetime that
its response gives it. -/
namespace Sovereign.Jwks

def isDigit (c : Char) : Bool := (Text.digit c).isSome

def number (ds : List Char) : Option Nat :=
  if ds=[] then none else (ds.mapM Text.digit).map fun ns => ns.foldl (fun n d => 10*n+d) 0

/-- `(?:\s*,|$)`; `$` also stands before a last newline. -/
def closes (cs : List Char) : Bool :=
  decide (cs=[] ∨ cs=['\n'] ∨ (cs.dropWhile Text.isSpace).head?=some ',')

def maxAgeAt (cs : List Char) : Option Nat :=
  if "max-age=".toList.isPrefixOf cs then
    let value := cs.drop 8
    if closes (value.dropWhile isDigit) then number (value.takeWhile isDigit) else none
  else none

/-- The pattern from its alternative `,\s*`, leftmost first. -/
def afterComma : List Char → Option Nat
  | [] => none
  | c::cs =>
    if c = ',' then (maxAgeAt (cs.dropWhile Text.isSpace)).or (afterComma cs) else afterComma cs

def maxAgeRe (header : List Char) : Option Nat := (maxAgeAt header).or (afterComma header)

/-! The pieces of a header, and its directives. -/

def pieces : List Char → List (List Char)
  | [] => [[]]
  | c::cs => if c = ',' then []::pieces cs else (pieces cs).modifyHead (c::·)

/-- The piece reads `max-age=` and digits, in lower case, up to its comma or to the end. -/
def spelled (last : Bool) (piece : List Char) : Option Nat :=
  if "max-age=".toList.isPrefixOf piece then
    let value := piece.drop 8
    let rest := value.dropWhile isDigit
    if (if last then decide (rest=[] ∨ rest=['\n']) else rest.all Text.isSpace) then
      number (value.takeWhile isDigit)
    else none
  else none

def spelledLater : List (List Char) → Option Nat
  | [] => none
  | p::ps => (spelled ps.isEmpty (p.dropWhile Text.isSpace)).or (spelledLater ps)

def seen (header : List Char) : Option Nat :=
  match pieces header with
  | [] => none
  | p::ps => (spelled ps.isEmpty p).or (spelledLater ps)

inductive Mode where
  | bare
  | quoted
  | escaped
deriving DecidableEq

def Mode.next : Mode → Char → Mode
  | .bare, c => if c = '"' then .quoted else .bare
  | .quoted, c => if c = '"' then .bare else if c = '\\' then .escaped else .quoted
  | .escaped, _ => .quoted

/-- The directives, between the commas outside of quoted strings. -/
def directives : Mode → List Char → List (List Char)
  | _, [] => [[]]
  | m, c::cs =>
    if m=.bare ∧ c = ',' then []::directives .bare cs
    else (directives (m.next c) cs).modifyHead (c::·)

def unquoted (v : List Char) : List Char :=
  if 2 ≤ v.length ∧ v.head?=some '"' ∧ v.getLast?=some '"' then v.tail.dropLast else v

def maxAgeOf (directive : List Char) : Option Nat :=
  let d := Text.strip directive
  if Text.lower (d.takeWhile (· != '='))="max-age".toList then
    number (unquoted (d.dropWhile (· != '=')).tail)
  else none

def maxAge (header : List Char) : Option Nat := (directives .bare header).findSome? maxAgeOf

example : maxAge "no-cache=\"a, max-age=1\", Max-Age=60".toList=some 60 ∧
    maxAgeRe "no-cache=\"a, max-age=1\", Max-Age=60".toList=none := by decide +kernel
example : maxAge "public, max-age=42".toList=some 42 ∧
    maxAgeRe "public, max-age=42".toList=some 42 := by decide +kernel

/-! The pattern finds the first piece that is spelled so. -/

section Pattern

theorem takeWhile_stop {p : Char → Bool} {c : Char} (hc : p c=false) (xs ys : List Char) :
    (xs++c::ys).takeWhile p=xs.takeWhile p := by
  induction xs with
  | nil => simp [hc]
  | cons x xs ih => simp only [List.cons_append, List.takeWhile_cons, ih]

theorem dropWhile_stop {p : Char → Bool} {c : Char} (hc : p c=false) (xs ys : List Char) :
    (xs++c::ys).dropWhile p=xs.dropWhile p++c::ys := by
  induction xs with
  | nil => simp [hc]
  | cons x xs ih =>
    simp only [List.cons_append, List.dropWhile_cons, ih]
    split <;> rfl

theorem not_mem_dropWhile {p : Char → Bool} {c : Char} {xs : List Char} (h : c∉xs) :
    c∉xs.dropWhile p := fun hc => h ((List.dropWhile_suffix p).subset hc)

theorem pieces_cases (h : List Char) :
    (',' ∉ h ∧ pieces h=[h]) ∨
    ∃ p rest, ',' ∉ p ∧ h=p ++ ',' :: rest ∧ pieces h=p::pieces rest := by
  induction h with
  | nil => exact .inl ⟨List.not_mem_nil, rfl⟩
  | cons c cs ih =>
    by_cases hc : c = ','
    · subst hc
      exact .inr ⟨[], cs, List.not_mem_nil, rfl, by simp [pieces]⟩
    · obtain ⟨hcs, hp⟩ | ⟨p, rest, hcs, rfl, hp⟩ := ih
      · exact .inl ⟨by simp [hcs, Ne.symm hc], by simp [pieces, hc, hp]⟩
      · exact .inr ⟨c::p, rest, by simp [hcs, Ne.symm hc], rfl, by simp [pieces, hc, hp]⟩

theorem pieces_ne_nil (h : List Char) : pieces h≠[] := by
  obtain ⟨-, he⟩ | ⟨r, t, -, -, he⟩ := pieces_cases h
  · simp [he]
  · simp [he]

theorem comma_not_space : Text.isSpace ','=false := by decide

theorem comma_not_digit : isDigit ','=false := by decide

theorem closes_last {rest : List Char} (h : ','∉rest) :
    closes rest=decide (rest=[] ∨ rest=['\n']) := by
  have hhead : (rest.dropWhile Text.isSpace).head?≠some ',' := fun hh =>
    not_mem_dropWhile h (List.mem_of_mem_head? hh)
  simp [closes, hhead]

theorem closes_stop {rest : List Char} (h : ','∉rest) (after : List Char) :
    closes (rest ++ ',' :: after)=rest.all Text.isSpace := by
  have hlone : rest ++ ',' :: after≠['\n'] := by
    intro he
    have hm : ','∈rest ++ ',' :: after := List.mem_append_right _ List.mem_cons_self
    rw [he] at hm
    exact absurd hm (by decide)
  simp only [closes, List.append_eq_nil_iff, reduceCtorEq, and_false, hlone, false_or,
    dropWhile_stop comma_not_space]
  rw [Bool.eq_iff_iff, decide_eq_true_eq, List.all_eq_true, ← List.dropWhile_eq_nil_iff]
  constructor
  · intro hhead
    cases hd : rest.dropWhile Text.isSpace with
    | nil => rfl
    | cons c cs =>
      rw [hd] at hhead
      cases hhead
      exact absurd (hd ▸ List.mem_cons_self) (not_mem_dropWhile h)
  · intro hd
    rw [hd]
    rfl

theorem maxAgeAt_last {p : List Char} (h : ','∉p) : maxAgeAt p=spelled true p := by
  have hrest : ','∉(p.drop 8).dropWhile isDigit := not_mem_dropWhile fun hc =>
    h (List.mem_of_mem_drop hc)
  simp only [maxAgeAt, spelled, closes_last hrest]
  rfl

theorem prefix_stop {w p : List Char} (hw : ','∉w) (after : List Char) :
    w.isPrefixOf (p ++ ',' :: after)=w.isPrefixOf p := by
  induction w generalizing p with
  | nil => rfl
  | cons c w ih =>
    obtain ⟨hc, hw⟩ := not_or.mp (List.mem_cons.not.mp hw)
    cases p with
    | nil => simp [List.isPrefixOf, Ne.symm hc]
    | cons d p => simp only [List.cons_append, List.isPrefixOf, ih hw]

theorem maxAgeAt_stop {p : List Char} (h : ','∉p) (after : List Char) :
    maxAgeAt (p ++ ',' :: after)=spelled false p := by
  have hrest : ','∉(p.drop 8).dropWhile isDigit := not_mem_dropWhile fun hc =>
    h (List.mem_of_mem_drop hc)
  have hpre := prefix_stop (p := p) (by decide : ','∉"max-age=".toList) after
  simp only [maxAgeAt, spelled, hpre]
  split
  · next hp =>
    have hlen : 8 ≤ p.length := (List.isPrefixOf_iff_prefix.mp hp).length_le
    rw [List.drop_append_of_le_length hlen, dropWhile_stop comma_not_digit,
      takeWhile_stop comma_not_digit, closes_stop hrest]
    rfl
  · rfl

theorem maxAgeAt_pieces (cs : List Char) {p : List Char} {ps : List (List Char)}
    (hp : pieces cs=p::ps) :
    maxAgeAt cs=spelled ps.isEmpty p ∧
      maxAgeAt (cs.dropWhile Text.isSpace)=spelled ps.isEmpty (p.dropWhile Text.isSpace) := by
  obtain ⟨hcs, he⟩ | ⟨q, rest, hq, rfl, he⟩ := pieces_cases cs
  · cases hp.symm.trans he
    exact ⟨maxAgeAt_last hcs, maxAgeAt_last (not_mem_dropWhile hcs)⟩
  · cases hp.symm.trans he
    rw [List.isEmpty_eq_false_iff.mpr (pieces_ne_nil rest), dropWhile_stop comma_not_space]
    exact ⟨maxAgeAt_stop hq rest, maxAgeAt_stop (not_mem_dropWhile hq) rest⟩

theorem afterComma_pieces (cs : List Char) : afterComma cs=spelledLater (pieces cs).tail := by
  induction cs with
  | nil => rfl
  | cons c cs ih =>
    by_cases hc : c = ','
    · simp only [afterComma, pieces, hc, if_true, List.tail_cons]
      cases hp : pieces cs with
      | nil => exact absurd hp (pieces_ne_nil cs)
      | cons p ps =>
        rw [hp, List.tail_cons] at ih
        rw [(maxAgeAt_pieces cs hp).2, ih, spelledLater]
    · simp only [afterComma, pieces, hc, if_false, ih, List.tail_modifyHead]

theorem maxAgeRe_eq_seen (header : List Char) : maxAgeRe header=seen header := by
  have hlater := afterComma_pieces header
  cases hp : pieces header with
  | nil => exact absurd hp (pieces_ne_nil header)
  | cons p ps =>
    rw [hp] at hlater
    simp only [maxAgeRe, seen, hp, (maxAgeAt_pieces header hp).1, hlater, List.tail_cons]

end Pattern

section Verifier
variable {κ : Type*}

structure Config where
  cacheTtl : ℚ := 3600
  staleGrace : ℚ := 900

/-- What a request raises: an error of the transport or the status, a `ValueError` of the body,
anything else. -/
inductive Fault where
  | http
  | value
  | other

/-- A key set; the header that came with it and the clock reading when it was stored are not
kept by the code. -/
structure Fetched (κ : Type*) where
  keys : κ
  cacheControl : List Char
  time : ℚ
deriving DecidableEq

/-- A document is its `jwks_uri`, if it has one. -/
structure State (κ : Type*) where
  discovery : Option (Option String) := none
  discoveryLoadedAt : ℚ := 0
  jwksData : Option (Fetched κ) := none
  jwksLoadedAt : ℚ := 0
  jwksTtl : ℚ

def State.initial (cfg : Config) : State κ := { jwksTtl := cfg.cacheTtl }

/-- A call: the provider's answers where they are asked for and the readings of the clock, in
their order. The body `null` is `none`. -/
structure Visit (κ : Type*) where
  document : Except Fault (Option (Option String))
  answer : Except Fault (Option κ × List Char)
  looked : ℚ
  loaded : ℚ
  checked : ℚ
  ended : ℚ

variable (cfg : Config)

def cacheFresh (now loadedAt ttl : ℚ) : Bool := decide (now-loadedAt < ttl)

def cacheStaleButUsable (now loadedAt ttl : ℚ) : Bool :=
  decide (now-loadedAt < ttl+cfg.staleGrace)

def responseMaxAge (header : List Char) : Option ℚ := (maxAgeRe header).map fun n => (n : ℚ)

/-- `self._response_max_age(response) or self._cache_ttl`. -/
def lifetime (header : List Char) : ℚ :=
  match responseMaxAge header with
  | some age => if age≠0 then age else cfg.cacheTtl
  | none => cfg.cacheTtl

def getDiscovery (st : State κ) (v : Visit κ) : Except Fault (Option (Option String)) × State κ :=
  if st.discovery.isSome ∧ cacheFresh v.looked st.discoveryLoadedAt cfg.cacheTtl then
    (.ok st.discovery, st)
  else
    match v.document with
    | .ok doc => (.ok doc, { st with discovery := doc, discoveryLoadedAt := v.loaded })
    | .error .http =>
      if st.discovery.isSome then (.ok st.discovery, st) else (.error .http, st)
    | .error fault => (.error fault, st)

/-- `found` has the reading that let the call return the set, and whether the provider was asked
for a new one. -/
inductive Outcome (κ : Type*) where
  | raised
  | null
  | found (set : Fetched κ) (now : ℚ) (asked : Bool)
deriving DecidableEq

def refresh (st : State κ) (v : Visit κ) : Outcome κ × State κ :=
  match v.answer with
  | .ok (keys, header) =>
    let data := keys.map fun k => ⟨k, header, v.ended⟩
    let st := { st with jwksData := data, jwksLoadedAt := v.ended, jwksTtl := lifetime cfg header }
    match data with
    | some set => (.found set v.ended true, st)
    | none => (.null, st)
  | .error .other => (.raised, st)
  | .error _ =>
    match st.jwksData with
    | some set =>
      if cacheStaleButUsable cfg v.ended st.jwksLoadedAt st.jwksTtl then
        (.found set v.ended true, st)
      else (.raised, st)
    | none => (.raised, st)

def fetchJwksData (st : State κ) (v : Visit κ) : Outcome κ × State κ :=
  match getDiscovery cfg st v with
  | (.error _, st) => (.raised, st)
  | (.ok doc, st) =>
    -- a document that is null has no `get`, and one without `jwks_uri` raises
    match doc.join with
    | none => (.raised, st)
    | some _ =>
      match st.jwksData with
      | some set =>
        if cacheFresh v.checked st.jwksLoadedAt st.jwksTtl then (.found set v.checked false, st)
        else refresh cfg st v
      | none => refresh cfg st v

def step (st : State κ) (v : Visit κ) : State κ := (fetchJwksData cfg st v).2

/-- The lifetime that the response has by its header, else the configured one. -/
def declared (header : List Char) : ℚ :=
  match maxAge header with
  | some n => n
  | none => cfg.cacheTtl

/-- A set that is found is within its lifetime and the grace, and after its lifetime the provider
was asked first. -/
def Within (o : Outcome κ) : Prop :=
  ∀ set now asked, o=.found set now asked →
    now-set.time < declared cfg set.cacheControl+cfg.staleGrace ∧
      (declared cfg set.cacheControl ≤ now-set.time → asked=true)

def Bounded (st : State κ) (v : Visit κ) : Prop := Within cfg (fetchJwksData cfg st v).1

/-- What stands in for the declared lifetime is no longer: the first directive that is spelled
in lower case, unless it is zero, else the configured lifetime. -/
def Honored (header : List Char) : Prop :=
  (∃ n, seen header=some n ∧ n≠0 ∧ (n : ℚ) ≤ declared cfg header) ∨
    ((seen header).getD 0=0 ∧ cfg.cacheTtl ≤ declared cfg header)

/-- A key set of the answer is honored, and some time is left to it. -/
def Sound : Except Fault (Option κ × List Char) → Prop
  | .ok (some _, header) => Honored cfg header ∧ 0 < declared cfg header+cfg.staleGrace
  | _ => True

def HonoredAnswer (st : State κ) (v : Visit κ) : Prop :=
  (st.jwksData.isSome → cacheFresh v.checked st.jwksLoadedAt st.jwksTtl=false) →
    Sound cfg v.answer

instance (header : List Char) : Decidable (Honored cfg header) :=
  match h : seen header with
  | none => decidable_of_iff (cfg.cacheTtl ≤ declared cfg header) (by simp [Honored, h])
  | some n =>
    decidable_of_iff
      ((n≠0 ∧ (n : ℚ) ≤ declared cfg header) ∨ (n=0 ∧ cfg.cacheTtl ≤ declared cfg header))
      (by simp [Honored, h])

instance : ∀ answer : Except Fault (Option κ × List Char), Decidable (Sound cfg answer)
  | .ok (some _, header) =>
    inferInstanceAs (Decidable (Honored cfg header ∧ 0 < declared cfg header+cfg.staleGrace))
  | .ok (none, _) | .error _ => isTrue trivial

instance (st : State κ) (v : Visit κ) : Decidable (HonoredAnswer cfg st v) :=
  inferInstanceAs (Decidable (_ → _))

variable {cfg}

theorem Honored.lifetime_le {header : List Char} (h : Honored cfg header) :
    lifetime cfg header ≤ declared cfg header := by
  rw [lifetime, responseMaxAge, maxAgeRe_eq_seen]
  obtain ⟨n, hn, hne, hle⟩ | ⟨hz, hle⟩ := h
  · simpa [hn, hne] using hle
  · cases hs : seen header with
    | none => exact hle
    | some n =>
      rw [hs] at hz
      simpa [show n=0 from hz] using hle

structure Kept (cfg : Config) (st : State κ) : Prop where
  time : ∀ set∈st.jwksData, set.time=st.jwksLoadedAt
  ttl : ∀ set∈st.jwksData, st.jwksTtl ≤ declared cfg set.cacheControl

theorem Kept.initial : Kept cfg (State.initial cfg : State κ) where
  time := fun set h => by cases h
  ttl := fun set h => by cases h

theorem getDiscovery_frame (cfg : Config) (st : State κ) (v : Visit κ) :
    (getDiscovery cfg st v).2.jwksData=st.jwksData ∧
      (getDiscovery cfg st v).2.jwksLoadedAt=st.jwksLoadedAt ∧
      (getDiscovery cfg st v).2.jwksTtl=st.jwksTtl := by
  unfold getDiscovery
  split
  · exact ⟨rfl, rfl, rfl⟩
  · split
    · exact ⟨rfl, rfl, rfl⟩
    · split <;> exact ⟨rfl, rfl, rfl⟩
    · exact ⟨rfl, rfl, rfl⟩

theorem Within.raised : Within cfg (Outcome.raised : Outcome κ) := fun _ _ _ h => by cases h

theorem refresh_kept {st : State κ} {v : Visit κ} (hst : Kept cfg st)
    (hv : Sound cfg v.answer) :
    Kept cfg (refresh cfg st v).2 ∧ Within cfg (refresh cfg st v).1 := by
  unfold refresh
  split
  · next keys header ha =>
    cases keys with
    | none =>
      refine ⟨⟨fun set h => ?_, fun set h => ?_⟩, fun set now asked h => ?_⟩
      · cases h
      · cases h
      · cases h
    | some keys =>
      rw [ha] at hv
      obtain ⟨hhonored, hleft⟩ := hv
      refine ⟨⟨fun set h => ?_, fun set h => ?_⟩, fun set now asked h => ?_⟩
      · cases h
        rfl
      · cases h
        exact hhonored.lifetime_le
      · cases h
        exact ⟨by rwa [sub_self], fun _ => rfl⟩
  · exact ⟨hst, .raised⟩
  · split
    · next set hset =>
      split
      · next husable =>
        refine ⟨hst, fun set' now asked h => ?_⟩
        cases h
        have htime := hst.time set hset
        have httl := hst.ttl set hset
        have hage := of_decide_eq_true husable
        exact ⟨by linarith, fun _ => rfl⟩
      · exact ⟨hst, .raised⟩
    · exact ⟨hst, .raised⟩

theorem fetchJwksData_kept (hgrace : 0 ≤ cfg.staleGrace) {st : State κ} {v : Visit κ}
    (hst : Kept cfg st) (hv : HonoredAnswer cfg st v) :
    Kept cfg (step cfg st v) ∧ Bounded cfg st v := by
  obtain ⟨hdata, hloaded, httl⟩ := getDiscovery_frame cfg st v
  unfold Bounded step fetchJwksData
  generalize getDiscovery cfg st v=looked at hdata hloaded httl ⊢
  obtain ⟨found, st'⟩ := looked
  have hst' : Kept cfg st' :=
    ⟨fun set h => hloaded ▸ hst.time set (hdata ▸ h), fun set h => httl ▸ hst.ttl set (hdata ▸ h)⟩
  dsimp only at hdata hloaded httl
  split
  · next he =>
    cases he
    exact ⟨hst', Within.raised⟩
  · next doc st'' he =>
    cases he
    split
    · exact ⟨hst', Within.raised⟩
    · split
      · next set hset =>
        split
        · next hfresh =>
          refine ⟨hst', fun set' now asked h => ?_⟩
          cases h
          have htime := hst'.time set hset
          have hlife := hst'.ttl set hset
          have hage := of_decide_eq_true hfresh
          exact ⟨by linarith, fun hle => absurd hle (by linarith)⟩
        · next hstale =>
          refine refresh_kept hst' (hv fun _ => ?_)
          rw [← hloaded, ← httl]
          exact Bool.eq_false_iff.mpr hstale
      · next hnone =>
        refine refresh_kept hst' (hv fun hsome => ?_)
        rw [← hdata, hnone] at hsome
        cases hsome

/-- In every run of calls whose answers are honored, the staleness of the key set is bounded. -/
theorem jwks_staleness_bounded (cfg : Config) (hgrace : 0 ≤ cfg.staleGrace)
    (visits : List (Visit κ))
    (h : Trace.Along (step cfg) (HonoredAnswer cfg) (State.initial cfg) visits) :
    Trace.Along (step cfg) (Bounded cfg) (State.initial cfg) visits :=
  Trace.Along.of_invariant (Kept cfg) (fun _ _ hst hv => (fetchJwksData_kept hgrace hst hv).1)
    (fun _ _ hst hv => (fetchJwksData_kept hgrace hst hv).2) .initial h

def visit (now : ℚ) (answer : Except Fault (Option Nat × List Char)) : Visit Nat where
  document := .ok (some (some "https://idp.test/oauth2/jwks"))
  answer := answer
  looked := now
  loaded := now
  checked := now
  ended := now

def outage : List (Visit Nat) :=
  [visit 0 (.ok (some 1, "public, max-age=42".toList)), visit 41 (.error .http),
    visit 42 (.ok (some 2, [])), visit 3700 (.error .http)]

theorem outage_bounded :
    (fetchJwksData {} (Trace.exec (step {}) (State.initial {}) outage.dropLast)
        (visit 3700 (.error .http))).1=.found ⟨2, [], 42⟩ 3700 true ∧
      Trace.Along (step {}) (Bounded {}) (State.initial {}) outage :=
  ⟨by decide +kernel, jwks_staleness_bounded {} (by decide +kernel) outage (by decide +kernel)⟩

/-- A set that is not to be kept is returned an hour later, and nothing is asked. -/
theorem zero_max_age_is_kept :
    ¬ Trace.Along (step {}) (Bounded {}) (State.initial {})
      [visit 0 (.ok (some 1, "max-age=0".toList)), visit 3599 (.error .http)] := by
  intro h
  obtain ⟨-, hb, -⟩ := h
  have hw := hb ⟨1, "max-age=0".toList, 0⟩ 3599 false (by decide +kernel)
  exact absurd (hw.2 (by decide +kernel)) (by decide)

end Verifier
end Sovereign.Jwks
