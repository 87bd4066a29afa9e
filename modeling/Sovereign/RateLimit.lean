import Sovereign.Trace
import Mathlib.Algebra.Order.Archimedean.Basic
import Mathlib.Algebra.Order.Ring.Rat
import Mathlib.Data.Finset.Card

/-! The token buckets of the rate limit, one for each key of a caller, and which callers share
a budget. -/
namespace Sovereign.RateLimit

structure TokenBucket where
  capacity : ℚ
  rate : ℚ
  tokens : ℚ
  updated : ℚ
deriving DecidableEq

def TokenBucket.new (capacity rate now : ℚ) : TokenBucket := ⟨capacity, rate, capacity, now⟩

def TokenBucket.filled (b : TokenBucket) (now : ℚ) : ℚ :=
  min b.capacity (b.tokens+max 0 (now-b.updated)*b.rate)

def TokenBucket.allow (b : TokenBucket) (now cost : ℚ) : Bool × TokenBucket :=
  if cost ≤ b.filled now then (true, { b with tokens := b.filled now-cost, updated := now })
  else (false, { b with tokens := b.filled now, updated := now })

/-- The buckets in the order of their last use. -/
structure RateLimiter where
  rps : ℚ
  burst : ℚ
  buckets : List (String × TokenBucket) := []
deriving DecidableEq

def maxBuckets : Nat := 10000

namespace RateLimiter

def enabled (l : RateLimiter) : Bool := decide (0 < l.rps)

def bucket (l : RateLimiter) (key : String) (ts : ℚ) : TokenBucket :=
  (l.buckets.lookup key).getD (.new l.burst l.rps ts)

def touch (l : RateLimiter) (key : String) (b : TokenBucket) : List (String × TokenBucket) :=
  (l.buckets.filter fun p => decide (p.1≠key))++[(key, b)]

def allow (l : RateLimiter) (key : String) (ts : ℚ) : Bool × RateLimiter :=
  if l.enabled then
    let (allowed, b) := (l.bucket key ts).allow ts 1
    let buckets := l.touch key b
    (allowed, { l with buckets := if maxBuckets < buckets.length then buckets.tail else buckets })
  else (true, l)

end RateLimiter

structure Caller where
  authorization : Option String
  host : Option String
deriving DecidableEq

/-- `auth.split(' ', 1)[-1]`. -/
def credential (auth : List Char) : List Char :=
  match auth.dropWhile (· != ' ') with
  | [] => auth
  | _::rest => rest

def hostKey : Option String → String
  | some host => "ip:"++host
  | none => "ip:unknown"

def callerKey (c : Caller) : String :=
  match c.authorization with
  | some auth =>
    if auth≠"" then "auth:"++String.ofList ((credential auth.toList).take 64) else hostKey c.host
  | none => hostKey c.host

structure Request where
  path : String
  caller : Caller
  time : ℚ
deriving DecidableEq

/-- The middleware; it is not installed on a limiter that is not enabled. -/
def limit (l : RateLimiter) (r : Request) : Bool × RateLimiter :=
  if l.enabled then
    if r.path="/healthz" then (true, l) else l.allow (callerKey r.caller) r.time
  else (true, l)

def step (l : RateLimiter) (r : Request) : RateLimiter := (limit l r).2

def decided (a : Caller) (l : RateLimiter) (r : Request) : List Bool :=
  if r.caller=a then [(limit l r).1] else []

def decisions (rps burst : ℚ) (a : Caller) (requests : List Request) : List Bool :=
  Trace.outputs step (decided a) { rps := rps, burst := burst } requests

/-- Whatever is requested by fewer callers than there are buckets, the decisions for `a` do not
depend on the requests of `b`. -/
def Isolated (rps burst : ℚ) (a b : Caller) : Prop :=
  ∀ requests : List Request, (requests.map Request.caller).dedup.length < maxBuckets →
    decisions rps burst a requests=
      decisions rps burst a (requests.filter fun r => decide (r.caller≠b))

section Buckets
variable {l : RateLimiter} {K : List String} {rps burst : ℚ}

theorem lookup_touch (key k : String) (b : TokenBucket) :
    (l.touch key b).lookup k=if k=key then some b else l.buckets.lookup k := by
  rw [RateLimiter.touch, List.lookup_append]
  by_cases hk : k=key
  · subst hk
    have hnone : (l.buckets.filter fun p => decide (p.1≠k)).lookup k=none := by
      rw [List.lookup_eq_none_iff]
      intro p hp
      have hne : p.1≠k := of_decide_eq_true (List.mem_filter.mp hp).2
      exact bne_iff_ne.mpr hne.symm
    rw [hnone, if_pos rfl, List.lookup_cons_self]
    rfl
  · rw [if_neg hk]
    have hlast : [(key, b)].lookup k=none := by
      rw [List.lookup_cons, beq_eq_false_iff_ne.mpr hk]
      rfl
    rw [hlast, Option.or_none]
    induction l.buckets with
    | nil => rfl
    | cons p ps ih =>
      by_cases hp : p.1=key
      · rw [List.filter_cons_of_neg (by simp [hp]), ih, List.lookup_cons,
          beq_eq_false_iff_ne.mpr (hp ▸ hk)]
      · rw [List.filter_cons_of_pos (by simp [hp]), List.lookup_cons, List.lookup_cons, ih]

/-- The limiter with keys among the given ones. -/
structure Table (rps burst : ℚ) (K : List String) (l : RateLimiter) : Prop where
  rps : l.rps=rps
  burst : l.burst=burst
  nodup : (l.buckets.map Prod.fst).Nodup
  keys : ∀ p∈l.buckets, p.1∈K

theorem Table.initial : Table rps burst K { rps := rps, burst := burst } :=
  ⟨rfl, rfl, List.nodup_nil, fun p h => by cases h⟩

theorem Table.touch_length {key : String} (h : Table rps burst K l) (hkey : key∈K)
    (b : TokenBucket) :
    ((l.touch key b).map Prod.fst).Nodup ∧ (∀ p∈l.touch key b, p.1∈K) ∧
      (l.touch key b).length ≤ K.length := by
  have hkeys : ∀ p∈l.touch key b, p.1∈K := by
    intro p hp
    obtain hp | hp := List.mem_append.mp hp
    · exact h.keys p (List.mem_filter.mp hp).1
    · cases List.mem_singleton.mp hp
      exact hkey
  have hnodup : ((l.touch key b).map Prod.fst).Nodup := by
    rw [RateLimiter.touch, List.map_append, List.nodup_append]
    refine ⟨h.nodup.sublist (List.filter_sublist.map _), List.nodup_singleton _, ?_⟩
    intro k hk k' hk' he
    obtain ⟨p, hp, rfl⟩ := List.mem_map.mp hk
    cases List.mem_singleton.mp hk'
    exact of_decide_eq_true (List.mem_filter.mp hp).2 he
  refine ⟨hnodup, hkeys, ?_⟩
  rw [← List.length_map Prod.fst]
  refine (List.subperm_of_subset hnodup fun k hk => ?_).length_le
  obtain ⟨p, hp, rfl⟩ := List.mem_map.mp hk
  exact hkeys p hp

theorem allow_spec {key : String} (h : Table rps burst K l) (hkey : key∈K)
    (hK : K.length ≤ maxBuckets) (hrps : 0 < rps) (ts : ℚ) :
    (l.allow key ts).1=((l.bucket key ts).allow ts 1).1 ∧ Table rps burst K (l.allow key ts).2 ∧
      ∀ k, (l.allow key ts).2.buckets.lookup k=
        if k=key then some ((l.bucket key ts).allow ts 1).2 else l.buckets.lookup k := by
  obtain ⟨hnodup, hkeys, hlen⟩ := h.touch_length hkey ((l.bucket key ts).allow ts 1).2
  have hfit : ¬maxBuckets < (l.touch key ((l.bucket key ts).allow ts 1).2).length := by omega
  have hon : l.enabled=true := decide_eq_true (h.rps ▸ hrps)
  simp only [RateLimiter.allow, hon, if_true, if_neg hfit]
  exact ⟨trivial, ⟨h.rps, h.burst, hnodup, hkeys⟩, fun k => lookup_touch key k _⟩

structure Agree (rps burst : ℚ) (K : List String) (key : String) (s t : RateLimiter) : Prop where
  left : Table rps burst K s
  right : Table rps burst K t
  same : s.buckets.lookup key=t.buckets.lookup key

theorem Agree.bucket {key : String} {s t : RateLimiter} (h : Agree rps burst K key s t) (ts : ℚ) :
    s.bucket key ts=t.bucket key ts := by
  rw [RateLimiter.bucket, RateLimiter.bucket, h.same, h.left.rps, h.right.rps, h.left.burst,
    h.right.burst]

theorem limit_limited {r : Request} (h : Table rps burst K l) (hrps : 0 < rps)
    (hpath : r.path≠"/healthz") : limit l r=l.allow (callerKey r.caller) r.time := by
  have hon : l.enabled=true := decide_eq_true (h.rps ▸ hrps)
  rw [limit, hon, if_pos rfl, if_neg hpath]

theorem limit_probe {r : Request} (hpath : r.path="/healthz") : limit l r=(true, l) := by
  simp only [limit, hpath, if_true, ite_self]

theorem Agree.keep {a : Caller} {s t : RateLimiter} {r : Request} (hrps : 0 < rps)
    (hK : K.length ≤ maxBuckets) (h : Agree rps burst K (callerKey a) s t)
    (hr : callerKey r.caller∈K) :
    decided a s r=decided a t r ∧ Agree rps burst K (callerKey a) (step s r) (step t r) := by
  by_cases hpath : r.path="/healthz"
  · simp only [decided, step, limit_probe hpath]
    exact ⟨trivial, h⟩
  · obtain ⟨hs, hs', hls⟩ := allow_spec h.left hr hK hrps r.time
    obtain ⟨ht, ht', hlt⟩ := allow_spec h.right hr hK hrps r.time
    simp only [decided, step, limit_limited h.left hrps hpath, limit_limited h.right hrps hpath]
    constructor
    · split
      · next hc => rw [hs, ht, hc, h.bucket]
      · rfl
    · refine ⟨hs', ht', ?_⟩
      rw [hls, hlt]
      split
      · next hc => rw [← hc, h.bucket]
      · exact h.same

theorem Agree.drop {a : Caller} {s t : RateLimiter} {r : Request} (hrps : 0 < rps)
    (hK : K.length ≤ maxBuckets) (h : Agree rps burst K (callerKey a) s t)
    (hr : callerKey r.caller∈K) (hne : callerKey a≠callerKey r.caller) :
    decided a s r=[] ∧ Agree rps burst K (callerKey a) (step s r) t := by
  have hcaller : r.caller≠a := fun hc => hne (by rw [hc])
  refine ⟨by rw [decided, if_neg hcaller], ?_⟩
  by_cases hpath : r.path="/healthz"
  · simp only [step, limit_probe hpath]
    exact h
  · obtain ⟨-, hs', hls⟩ := allow_spec h.left hr hK hrps r.time
    simp only [step, limit_limited h.left hrps hpath]
    exact ⟨hs', h.right, by rw [hls, if_neg hne, h.same]⟩

/-- There are no more keys than callers. -/
theorem keys_length (requests : List Request) :
    (requests.map fun r => callerKey r.caller).dedup.length ≤
      (requests.map Request.caller).dedup.length := by
  rw [← List.card_toFinset, ← List.card_toFinset]
  have himage : (requests.map fun r => callerKey r.caller).toFinset=
      (requests.map Request.caller).toFinset.image callerKey := by
    ext k
    simp
  rw [himage]
  exact Finset.card_image_le

theorem isolated_of_keys {a b : Caller} (hrps : 0 < rps) (hkey : callerKey a≠callerKey b) :
    Isolated rps burst a b := by
  intro requests hfew
  let K := (requests.map fun r => callerKey r.caller).dedup
  have hK : K.length ≤ maxBuckets := (keys_length requests).trans hfew.le
  refine Trace.outputs_purge (Agree rps burst K (callerKey a))
    (fun r : Request => callerKey r.caller∈K) (fun r => decide (r.caller≠b)) ?_ ?_
    ⟨.initial, .initial, rfl⟩ fun r hr => ?_
  · exact fun s t r hr h _ => h.keep hrps hK hr
  · intro s t r hr h hb
    have hc : r.caller=b := not_not.mp (of_decide_eq_false hb)
    exact h.drop hrps hK hr (hc ▸ hkey)
  · exact List.mem_dedup.mpr (List.mem_map_of_mem hr)

/-! Limits that say the same of every request. -/

theorem isolated_of_constant {a b : Caller} (hab : a≠b) (Inv : RateLimiter → Prop)
    (verdict : Request → Bool) (hinit : Inv { rps := rps, burst := burst })
    (hstep : ∀ s r, Inv s → (limit s r).1=verdict r ∧ Inv (step s r)) : Isolated rps burst a b := by
  intro requests _
  refine Trace.outputs_purge (fun s t => Inv s ∧ Inv t) (fun _ => True)
    (fun r : Request => decide (r.caller≠b)) ?_ ?_ ⟨hinit, hinit⟩ fun _ _ => trivial
  · intro s t r _ h _
    obtain ⟨hs, hs'⟩ := hstep s r h.1
    obtain ⟨ht, ht'⟩ := hstep t r h.2
    exact ⟨by rw [decided, decided, hs, ht], hs', ht'⟩
  · intro s t r _ h hb
    have hc : r.caller=b := not_not.mp (of_decide_eq_false hb)
    exact ⟨by rw [decided, hc, if_neg (Ne.symm hab)], (hstep s r h.1).2, h.2⟩

theorem isolated_of_disabled {a b : Caller} (hab : a≠b) (hrps : rps ≤ 0) :
    Isolated rps burst a b := by
  refine isolated_of_constant hab (fun l => l.enabled=false) (fun _ => true) ?_ ?_
  · exact decide_eq_false (not_lt.mpr hrps)
  · intro s r h
    have hadmit : limit s r=(true, s) := by simp [limit, h]
    rw [step, hadmit]
    exact ⟨rfl, h⟩

structure Shut (l : RateLimiter) : Prop where
  enabled : l.enabled=true
  burst : l.burst < 1
  capacity : ∀ p∈l.buckets, p.2.capacity < 1

theorem Shut.bucket (h : Shut l) (key : String) (ts : ℚ) : (l.bucket key ts).capacity < 1 := by
  rw [RateLimiter.bucket]
  cases hb : l.buckets.lookup key with
  | none => exact h.burst
  | some b =>
    obtain ⟨before, after, he, _⟩ := List.lookup_eq_some_iff.mp hb
    exact h.capacity (key, b) (he ▸ List.mem_append_right _ List.mem_cons_self)

theorem allow_small {b : TokenBucket} (h : b.capacity < 1) (now : ℚ) :
    (b.allow now 1).1=false ∧ (b.allow now 1).2.capacity < 1 := by
  have hneg : ¬1 ≤ b.filled now := not_le.mpr ((min_le_left _ _).trans_lt h)
  rw [TokenBucket.allow, if_neg hneg]
  exact ⟨rfl, h⟩

theorem isolated_of_small {a b : Caller} (hab : a≠b) (hrps : 0 < rps) (hburst : burst < 1) :
    Isolated rps burst a b := by
  refine isolated_of_constant hab Shut (fun r => decide (r.path="/healthz")) ?_ ?_
  · exact ⟨decide_eq_true hrps, hburst, fun p h => by cases h⟩
  · intro s r h
    by_cases hpath : r.path="/healthz"
    · rw [step, limit_probe hpath]
      exact ⟨(decide_eq_true hpath).symm, h⟩
    · obtain ⟨hno, hsmall⟩ := allow_small (h.bucket (callerKey r.caller) r.time) r.time
      simp only [step, limit, h.enabled, if_true, if_neg hpath, RateLimiter.allow]
      refine ⟨by rw [hno, decide_eq_false hpath], h.enabled, h.burst, fun p hp => ?_⟩
      have htouch : p∈s.touch (callerKey r.caller)
          ((s.bucket (callerKey r.caller) r.time).allow r.time 1).2 := by
        dsimp only at hp
        split at hp
        · exact List.mem_of_mem_tail hp
        · exact hp
      obtain hp | hp := List.mem_append.mp htouch
      · exact h.capacity p (List.mem_filter.mp hp).1
      · cases List.mem_singleton.mp hp
        exact hsmall

structure Spent (burst : ℚ) (n : Nat) (b : TokenBucket) : Prop where
  updated : b.updated=0
  tokens : b.tokens < 1 ∨ b.tokens ≤ burst-n

theorem Spent.filled_le {n : Nat} {b : TokenBucket} (h : Spent burst n b) :
    b.filled 0 ≤ b.tokens := by
  rw [TokenBucket.filled, h.updated, sub_zero, max_self, zero_mul, add_zero]
  exact min_le_right _ _

theorem Spent.allow {n : Nat} {b : TokenBucket} (h : Spent burst n b) :
    Spent burst (n+1) (b.allow 0 1).2 := by
  have hle := h.filled_le
  rw [TokenBucket.allow]
  split
  · refine ⟨rfl, .inr ?_⟩
    push_cast
    obtain hlt | htokens := h.tokens
    · linarith
    · change b.filled 0-1 ≤ burst-(n+1)
      linarith
  · next hno => exact ⟨rfl, .inl (not_le.mp hno)⟩

theorem Spent.denied {n : Nat} {b : TokenBucket} (h : Spent burst n b) (hn : burst ≤ n) :
    (b.allow 0 1).1=false := by
  have hle := h.filled_le
  have hneg : ¬1 ≤ b.filled 0 := by
    obtain hlt | htokens := h.tokens
    · linarith
    · linarith
  rw [TokenBucket.allow, if_neg hneg]

def request (c : Caller) : Request := ⟨"/", c, 0⟩

theorem limit_request (h : Table rps burst K l) (hrps : 0 < rps) (c : Caller) :
    limit l (request c)=l.allow (callerKey c) 0 :=
  limit_limited h hrps (by decide : ("/" : String)≠"/healthz")

theorem spend (burst : ℚ) (hrps : 0 < rps) (c : Caller) (n : Nat) :
    Table rps burst [callerKey c]
        (Trace.exec step { rps := rps, burst := burst } (List.replicate n (request c))) ∧
      Spent burst n ((Trace.exec step { rps := rps, burst := burst }
        (List.replicate n (request c))).bucket (callerKey c) 0) := by
  induction n with
  | zero => exact ⟨.initial, rfl, .inr (by simp [Trace.exec, RateLimiter.bucket, TokenBucket.new])⟩
  | succ n ih =>
    rw [List.replicate_succ', Trace.exec_append]
    generalize Trace.exec step { rps := rps, burst := burst } (List.replicate n (request c))=l at ih
    obtain ⟨htable, hspent⟩ := ih
    obtain ⟨-, htable', hlookup⟩ :=
      allow_spec htable List.mem_cons_self (by simp [maxBuckets]) hrps 0
    simp only [Trace.exec, step, limit_request htable hrps]
    refine ⟨htable', ?_⟩
    rw [RateLimiter.bucket, hlookup, if_pos rfl]
    exact hspent.allow

theorem decided_replicate {a b : Caller} (hab : a≠b) (n : Nat) (l : RateLimiter) :
    Trace.outputs step (decided a) l (List.replicate n (request b))=[] := by
  induction n generalizing l with
  | zero => rfl
  | succ n ih =>
    have hb : decided a l (request b)=[] := if_neg (Ne.symm hab)
    rw [List.replicate_succ, Trace.outputs, ih, hb]
    rfl

theorem outputs_request (a : Caller) (l : RateLimiter) :
    Trace.outputs step (decided a) l [request a]=[(limit l (request a)).1] := by
  simp [Trace.outputs, decided, request]

theorem not_isolated {a b : Caller} (hab : a≠b) (hrps : 0 < rps) (hburst : 1 ≤ burst)
    (hkey : callerKey a=callerKey b) : ¬ Isolated rps burst a b := by
  intro h
  obtain ⟨n, hn⟩ := exists_nat_ge burst
  have hcallers : ((List.replicate n (request b)++[request a]).map Request.caller).dedup.length ≤
      [b, a].length := by
    refine (List.subperm_of_subset (List.nodup_dedup _) fun c hc => ?_).length_le
    obtain ⟨r, hr, rfl⟩ := List.mem_map.mp (List.mem_dedup.mp hc)
    obtain hr | hr := List.mem_append.mp hr
    · rw [List.eq_of_mem_replicate hr]
      exact List.mem_cons_self
    · rw [List.mem_singleton.mp hr]
      exact List.mem_cons_of_mem _ List.mem_cons_self
  have hsame := h _ (hcallers.trans_lt (by simp [maxBuckets]))
  have halone : (List.replicate n (request b)++[request a]).filter
      (fun r => decide (r.caller≠b))=[request a] := by
    simp [request, hab]
  obtain ⟨htable, hspent⟩ := spend burst hrps b n
  have hdenied : decisions rps burst a (List.replicate n (request b)++[request a])=[false] := by
    rw [decisions, Trace.outputs_append, decided_replicate hab, List.nil_append, outputs_request,
      limit_request htable hrps, hkey,
      (allow_spec htable List.mem_cons_self (by simp [maxBuckets]) hrps 0).1, hspent.denied hn]
  have hallowed : decisions rps burst a [request a]=[true] := by
    have hinit : Table rps burst [callerKey a] { rps := rps, burst := burst } := .initial
    have hfull : (1 : ℚ) ≤ (TokenBucket.new burst rps 0).filled 0 := by
      simpa [TokenBucket.filled, TokenBucket.new] using hburst
    rw [decisions, outputs_request, limit_request hinit hrps,
      (allow_spec hinit List.mem_cons_self (by simp [maxBuckets]) hrps 0).1]
    simp [RateLimiter.bucket, TokenBucket.allow, hfull]
  rw [halone, hdenied, hallowed] at hsame
  cases hsame

end Buckets

/-- Callers share a bucket if their credentials begin alike. -/
theorem callerKey_eq_iff {a b : Caller} {x y : String} (ha : a.authorization=some x)
    (hb : b.authorization=some y) (hx : x≠"") (hy : y≠"") : callerKey a=callerKey b ↔
      (credential x.toList).take 64=(credential y.toList).take 64 := by
  simp only [callerKey, ha, hb, if_pos hx, if_pos hy]
  rw [← String.toList_inj]
  simp

theorem rate_limit_isolation_iff (rps burst : ℚ) (a b : Caller) (x y : String)
    (ha : a.authorization=some x) (hb : b.authorization=some y) (hx : x≠"") (hy : y≠"")
    (hne : x≠y) :
    Isolated rps burst a b ↔
      (credential x.toList).take 64≠(credential y.toList).take 64 ∨ rps ≤ 0 ∨ burst < 1 := by
  have hab : a≠b := fun he => hne (Option.some.inj (by rw [← ha, ← hb, he]))
  have hkey := callerKey_eq_iff ha hb hx hy
  constructor
  · intro h
    by_contra hcon
    push Not at hcon
    obtain ⟨hsame, hrps, hburst⟩ := hcon
    exact not_isolated hab hrps hburst (hkey.mpr hsame) h
  · intro h
    obtain hrps | hrps := le_or_gt rps 0
    · exact isolated_of_disabled hab hrps
    · obtain hdiff | hoff | hsmall := h
      · exact isolated_of_keys hrps (hkey.not.mpr hdiff)
      · exact absurd hrps (not_lt.mpr hoff)
      · exact isolated_of_small hab hrps hsmall

def bearer (token : String) : Caller := ⟨some ("Bearer "++token), some "10.0.0.1"⟩

def issued (rest : String) : String :=
  "eyJhbGciOiJSUzI1NiIsInR5cCI6IkpXVCIsImtpZCI6ImsxIn0.eyJpc3MiOiJodHRwczovL2lkcC50ZXN0Iiwi"++rest

theorem short_tokens_isolated : Isolated 50 100 (bearer "alice") (bearer "bob") :=
  (rate_limit_isolation_iff 50 100 _ _ "Bearer alice" "Bearer bob" (by decide) (by decide)
    (by decide) (by decide) (by decide)).mpr (by decide)

/-- Tokens for the subjects `alice` and `bob`. -/
theorem issued_tokens_share :
    ¬ Isolated 50 100
      (bearer (issued "c3ViIjoiYWxpY2UifQ.c2lnMQ")) (bearer (issued "c3ViIjoiYm9iIn0.c2lnMg")) :=
  not_isolated (by decide) (by decide) (by decide)
    ((callerKey_eq_iff rfl rfl (by decide) (by decide)).mpr (by decide +kernel))

end Sovereign.RateLimit
