import Sovereign.RateLimit
import Mathlib.Algebra.Order.Field.Basic
import Mathlib.Tactic.Linarith

/-! How many calls of a key the limiter admits in a window of time. The potential of a bucket is
what was admitted since the window opened and the tokens that are left. -/
namespace Sovereign.RateLimit

structure Call where
  key : String
  now : ℚ
deriving DecidableEq

def start (rps burst : ℚ) : RateLimiter := { rps := rps, burst := burst }

def admits (l : RateLimiter) (c : Call) : Bool := (l.allow c.key c.now).1

def after (l : RateLimiter) (c : Call) : RateLimiter := (l.allow c.key c.now).2

def admitted (l : RateLimiter) (calls : List Call) : List Call :=
  Trace.outputs after (fun l c => if admits l c then [c] else []) l calls

def inWindow (key : String) (t₁ t₂ : ℚ) (c : Call) : Bool :=
  decide (c.key=key ∧ t₁ ≤ c.now ∧ c.now ≤ t₂)

def Timed (calls : List Call) : Prop := calls.Pairwise fun a b => a.now ≤ b.now

structure Sane (rps burst : ℚ) (b : TokenBucket) : Prop where
  capacity : b.capacity=burst
  rate : b.rate=rps
  nonneg : 0 ≤ b.tokens
  le_burst : b.tokens ≤ burst

section Bucket
variable {rps burst now : ℚ} {b : TokenBucket}

theorem sane_new (hburst : 0 ≤ burst) : Sane rps burst (.new burst rps now) :=
  ⟨rfl, rfl, hburst, le_refl burst⟩

theorem filled_eq (h : Sane rps burst b) (hnow : b.updated ≤ now) :
    b.filled now=min burst (b.tokens+(now-b.updated)*rps) := by
  rw [TokenBucket.filled, h.capacity, h.rate, max_eq_right (sub_nonneg.mpr hnow)]

theorem Sane.filled_nonneg (h : Sane rps burst b) (hrps : 0 < rps) : 0 ≤ b.filled now := by
  have hburst := h.nonneg.trans h.le_burst
  have hmore : 0 ≤ max 0 (now-b.updated)*b.rate := by
    rw [h.rate]
    exact mul_nonneg (le_max_left _ _) hrps.le
  rw [TokenBucket.filled, h.capacity]
  exact le_min hburst (add_nonneg h.nonneg hmore)

theorem Sane.filled_le (h : Sane rps burst b) : b.filled now ≤ burst := by
  rw [TokenBucket.filled, h.capacity]
  exact min_le_left _ _

theorem allow_updated : (b.allow now 1).2.updated=now := by
  rw [TokenBucket.allow]
  split
  · rfl
  · rfl

theorem Sane.allow (h : Sane rps burst b) (hrps : 0 < rps) : Sane rps burst (b.allow now 1).2 := by
  have hnonneg : 0 ≤ b.filled now := h.filled_nonneg hrps
  have hle : b.filled now ≤ burst := h.filled_le
  rw [TokenBucket.allow]
  split
  · next hone =>
    have hless : b.filled now-1 ≤ b.filled now := sub_le_self _ zero_le_one
    exact ⟨h.capacity, h.rate, sub_nonneg.mpr hone, hless.trans hle⟩
  · exact ⟨h.capacity, h.rate, hnonneg, hle⟩

end Bucket

section Tables
variable {rps burst : ℚ} {l : RateLimiter}

structure Bounded (rps burst : ℚ) (l : RateLimiter) : Prop where
  rps_eq : l.rps=rps
  burst_eq : l.burst=burst
  sane : ∀ p∈l.buckets, Sane rps burst p.2
  length_le : l.buckets.length ≤ maxBuckets

theorem Bounded.initial : Bounded rps burst (start rps burst) :=
  ⟨rfl, rfl, fun p h => (by cases h), Nat.zero_le _⟩

theorem Bounded.bucket (h : Bounded rps burst l) (hburst : 0 ≤ burst) (key : String) (ts : ℚ) :
    Sane rps burst (l.bucket key ts) := by
  rw [RateLimiter.bucket]
  cases hb : l.buckets.lookup key with
  | none =>
    rw [h.rps_eq, h.burst_eq]
    exact sane_new hburst
  | some b =>
    obtain ⟨before, rest, he, _⟩ := List.lookup_eq_some_iff.mp hb
    exact h.sane (key, b) (he ▸ List.mem_append_right _ List.mem_cons_self)

theorem Bounded.after (h : Bounded rps burst l) (hrps : 0 < rps) (hburst : 0 ≤ burst) (c : Call) :
    Bounded rps burst (after l c) := by
  have hon : l.enabled=true := decide_eq_true (h.rps_eq ▸ hrps)
  have hsane : ∀ p∈l.touch c.key ((l.bucket c.key c.now).allow c.now 1).2, Sane rps burst p.2 := by
    intro p hp
    obtain hp | hp := List.mem_append.mp hp
    · exact h.sane p (List.mem_filter.mp hp).1
    · cases List.mem_singleton.mp hp
      exact (h.bucket hburst c.key c.now).allow hrps
  have hlen : (l.touch c.key ((l.bucket c.key c.now).allow c.now 1).2).length ≤ maxBuckets+1 := by
    rw [RateLimiter.touch, List.length_append, List.length_singleton]
    exact Nat.succ_le_succ ((List.length_filter_le _ _).trans h.length_le)
  simp only [RateLimit.after, RateLimiter.allow, hon, if_true]
  refine ⟨h.rps_eq, h.burst_eq, ?_, ?_⟩
  · dsimp only
    split
    · exact fun p hp => hsane p (List.mem_of_mem_tail hp)
    · exact hsane
  · dsimp only
    split
    · rw [List.length_tail]
      omega
    · omega

theorem Bounded.run (h : Bounded rps burst l) (hrps : 0 < rps) (hburst : 0 ≤ burst)
    (calls : List Call) : Bounded rps burst (Trace.exec RateLimit.after l calls) := by
  induction calls generalizing l with
  | nil => exact h
  | cons c calls ih => exact ih (h.after hrps hburst c)

end Tables

section Key
variable {rps burst : ℚ} {K : List String} {l : RateLimiter} {key : String}

structure Running (rps burst : ℚ) (K : List String) (τ : ℚ) (l : RateLimiter) : Prop where
  table : Table rps burst K l
  sane : ∀ k b, l.buckets.lookup k=some b → Sane rps burst b
  past : ∀ k b, l.buckets.lookup k=some b → b.updated ≤ τ

theorem Running.initial (τ : ℚ) : Running rps burst K τ (start rps burst) :=
  ⟨.initial, fun k b h => (by cases h), fun k b h => (by cases h)⟩

theorem Running.later {τ τ' : ℚ} (h : Running rps burst K τ l) (hle : τ ≤ τ') :
    Running rps burst K τ' l :=
  ⟨h.table, h.sane, fun k b hb => (h.past k b hb).trans hle⟩

theorem Running.bucket {τ ts : ℚ} (h : Running rps burst K τ l) (hburst : 0 ≤ burst) (hts : τ ≤ ts)
    (k : String) : Sane rps burst (l.bucket k ts) ∧ (l.bucket k ts).updated ≤ ts := by
  rw [RateLimiter.bucket]
  cases hb : l.buckets.lookup k with
  | none =>
    rw [h.table.rps, h.table.burst]
    exact ⟨sane_new hburst, le_refl ts⟩
  | some b => exact ⟨h.sane k b hb, (h.past k b hb).trans hts⟩

/-- What a call does: the bucket of its key decides and is replaced. -/
structure Called (l : RateLimiter) (c : Call) : Prop where
  admits : admits l c=((l.bucket c.key c.now).allow c.now 1).1
  lookup : ∀ k, (after l c).buckets.lookup k=
    if k=c.key then some ((l.bucket c.key c.now).allow c.now 1).2 else l.buckets.lookup k

theorem Running.call {τ : ℚ} (h : Running rps burst K τ l) {c : Call} (hkey : c.key∈K)
    (hK : K.length ≤ maxBuckets) (hrps : 0 < rps) (hburst : 0 ≤ burst) (hτ : τ ≤ c.now) :
    Called l c ∧ Running rps burst K c.now (after l c) := by
  obtain ⟨hadmits, htable, hlookup⟩ := allow_spec h.table hkey hK hrps c.now
  have hbucket := (h.bucket hburst hτ c.key).1
  refine ⟨⟨hadmits, hlookup⟩, htable, ?_, ?_⟩
  · intro k b hb
    rw [after, hlookup] at hb
    split at hb
    · cases hb
      exact hbucket.allow hrps
    · exact h.sane k b hb
  · intro k b hb
    rw [after, hlookup] at hb
    split at hb
    · cases hb
      exact allow_updated.le
    · exact (h.past k b hb).trans hτ

theorem run_running {τ : ℚ} (h : Running rps burst K τ l) {calls : List Call}
    (hkeys : ∀ c∈calls, c.key∈K) (hK : K.length ≤ maxBuckets) (hrps : 0 < rps)
    (hburst : 0 ≤ burst) (htimed : Timed calls) (hτ : ∀ c∈calls, τ ≤ c.now) {τ' : ℚ}
    (hτ' : ∀ c∈calls, c.now ≤ τ') (hle : τ ≤ τ') :
    Running rps burst K τ' (Trace.exec after l calls) := by
  induction calls generalizing l τ with
  | nil => exact h.later hle
  | cons c calls ih =>
    obtain ⟨hc, htimed⟩ := List.pairwise_cons.mp htimed
    have hstep := (h.call (hkeys c List.mem_cons_self) hK hrps hburst (hτ c List.mem_cons_self)).2
    exact ih hstep (fun a ha => hkeys a (List.mem_cons_of_mem c ha)) htimed hc
      (fun a ha => hτ' a (List.mem_cons_of_mem c ha)) (hτ' c List.mem_cons_self)

/-- After `n` admitted calls of the key in the window from `t₁`: what was admitted and what is
left is no more than the burst and what has been refilled. -/
structure Metered (rps burst : ℚ) (t₁ : ℚ) (n : Nat) (b : TokenBucket) : Prop where
  before : b.updated < t₁ → n=0
  potential : n+b.tokens ≤ burst+rps*max 0 (b.updated-t₁)

/-- The potential is kept while time passes. -/
theorem Metered.filled {t₁ now : ℚ} {n : Nat} {b : TokenBucket} (h : Metered rps burst t₁ n b)
    (hsane : Sane rps burst b) (hrps : 0 < rps) (hnow : b.updated ≤ now) :
    n+b.filled now ≤ burst+rps*max 0 (now-t₁) := by
  have hburst : b.filled now ≤ burst := hsane.filled_le
  have hgrow : b.filled now ≤ b.tokens+(now-b.updated)*rps := by
    rw [filled_eq hsane hnow]
    exact min_le_right _ _
  by_cases hbefore : b.updated < t₁
  · have hmax : 0 ≤ rps*max 0 (now-t₁) := mul_nonneg hrps.le (le_max_left _ _)
    rw [h.before hbefore, Nat.cast_zero, zero_add]
    linarith
  · have hle := not_lt.mp hbefore
    have hold : max 0 (b.updated-t₁)=b.updated-t₁ := max_eq_right (by linarith)
    have hnew : max 0 (now-t₁)=now-t₁ := max_eq_right (by linarith)
    have hpot := h.potential
    rw [hold] at hpot
    rw [hnew]
    calc n+b.filled now ≤ n+b.tokens+(now-b.updated)*rps := by linarith
      _ ≤ burst+rps*(b.updated-t₁)+(now-b.updated)*rps := by linarith
      _ = burst+rps*(now-t₁) := by ring

theorem metered_new {t₁ now : ℚ} (hrps : 0 < rps) :
    Metered rps burst t₁ 0 (.new burst rps now) := by
  refine ⟨fun _ => rfl, ?_⟩
  have hmax : 0 ≤ rps*max 0 (now-t₁) := mul_nonneg hrps.le (le_max_left _ _)
  simp only [TokenBucket.new, Nat.cast_zero, zero_add]
  linarith

/-- A call of the key counts if it is admitted in the window. -/
theorem Metered.allow {t₁ t₂ now : ℚ} {n : Nat} {b : TokenBucket} (h : Metered rps burst t₁ n b)
    (hsane : Sane rps burst b) (hrps : 0 < rps) (hnow : b.updated ≤ now)
    (hbound : (n : ℚ) ≤ burst+rps*(t₂-t₁)) {m : Nat}
    (hm : m=if (b.allow now 1).1=true ∧ t₁ ≤ now ∧ now ≤ t₂ then 1 else 0) :
    Metered rps burst t₁ (n+m) (b.allow now 1).2 ∧ ((n+m : Nat) : ℚ) ≤ burst+rps*(t₂-t₁) := by
  have hpot := h.filled hsane hrps hnow
  have hzero (hlt : now < t₁) : n=0 := h.before (lt_of_le_of_lt hnow hlt)
  by_cases hone : 1 ≤ b.filled now
  · rw [TokenBucket.allow, if_pos hone] at hm ⊢
    simp only [true_and] at hm
    by_cases hin : t₁ ≤ now ∧ now ≤ t₂
    · rw [if_pos hin] at hm
      subst hm
      have hmax : max 0 (now-t₁)=now-t₁ := max_eq_right (by linarith [hin.1])
      have hmono : rps*(now-t₁) ≤ rps*(t₂-t₁) :=
        mul_le_mul_of_nonneg_left (by linarith [hin.2]) hrps.le
      rw [hmax] at hpot
      push_cast
      refine ⟨⟨fun hlt => absurd hin.1 (not_le.mpr hlt), ?_⟩, by linarith⟩
      push_cast
      rw [hmax]
      linarith
    · rw [if_neg hin] at hm
      subst hm
      refine ⟨⟨hzero, ?_⟩, hbound⟩
      dsimp only
      rw [Nat.add_zero]
      linarith
  · rw [TokenBucket.allow, if_neg hone] at hm ⊢
    simp only [Bool.false_eq_true, false_and, if_false] at hm
    subst hm
    exact ⟨⟨hzero, hpot⟩, hbound⟩

structure Meter (rps burst : ℚ) (key : String) (t₁ t₂ : ℚ) (n : Nat) (l : RateLimiter) :
    Prop where
  bound : (n : ℚ) ≤ burst+rps*(t₂-t₁)
  absent : l.buckets.lookup key=none → n=0
  metered : ∀ b, l.buckets.lookup key=some b → Metered rps burst t₁ n b

theorem Meter.bucket {t₁ t₂ τ now : ℚ} {n : Nat} (h : Meter rps burst key t₁ t₂ n l)
    (hrun : Running rps burst K τ l) (hrps : 0 < rps) :
    Metered rps burst t₁ n (l.bucket key now) := by
  rw [RateLimiter.bucket]
  cases hb : l.buckets.lookup key with
  | none =>
    rw [h.absent hb, hrun.table.rps, hrun.table.burst]
    exact metered_new hrps
  | some b => exact h.metered b hb

theorem length_inWindow {t₁ t₂ : ℚ} {c : Call} (hcall : Called l c) :
    ((if admits l c then [c] else []).filter (inWindow c.key t₁ t₂)).length=
      if ((l.bucket c.key c.now).allow c.now 1).1=true ∧ t₁ ≤ c.now ∧ c.now ≤ t₂
      then 1 else 0 := by
  rw [← hcall.admits]
  by_cases ha : admits l c=true
  · by_cases hin : t₁ ≤ c.now ∧ c.now ≤ t₂
    · simp [ha, hin, inWindow]
    · simp [ha, hin, inWindow]
  · simp [ha]

theorem Meter.call {t₁ t₂ τ : ℚ} {n : Nat} (h : Meter rps burst key t₁ t₂ n l)
    (hrun : Running rps burst K τ l) {c : Call} (hcall : Called l c) (hrps : 0 < rps)
    (hburst : 0 ≤ burst) (hτ : τ ≤ c.now) :
    Meter rps burst key t₁ t₂
      (n+((if admits l c then [c] else []).filter (inWindow key t₁ t₂)).length) (after l c) := by
  by_cases hk : c.key=key
  · subst hk
    obtain ⟨hsane, hpast⟩ := hrun.bucket hburst hτ c.key
    obtain ⟨hnew, hbound⟩ :=
      (h.bucket hrun hrps).allow hsane hrps hpast h.bound (length_inWindow hcall)
    refine ⟨hbound, ?_, ?_⟩
    · intro hnone
      rw [hcall.lookup, if_pos rfl] at hnone
      cases hnone
    · intro b hb
      rw [hcall.lookup, if_pos rfl] at hb
      cases hb
      exact hnew
  · have hnone : ((if admits l c then [c] else []).filter (inWindow key t₁ t₂)).length=0 := by
      split
      · simp [inWindow, hk]
      · rfl
    have hsame : (after l c).buckets.lookup key=l.buckets.lookup key := by
      rw [hcall.lookup, if_neg (Ne.symm hk)]
    rw [hnone, Nat.add_zero]
    exact ⟨h.bound, fun he => h.absent (hsame ▸ he), fun b hb => h.metered b (hsame ▸ hb)⟩

theorem Meter.run {t₁ t₂ τ : ℚ} {n : Nat} (h : Meter rps burst key t₁ t₂ n l)
    (hrun : Running rps burst K τ l) {calls : List Call} (hkeys : ∀ c∈calls, c.key∈K)
    (hK : K.length ≤ maxBuckets) (hrps : 0 < rps) (hburst : 0 ≤ burst) (htimed : Timed calls)
    (hτ : ∀ c∈calls, τ ≤ c.now) :
    ((n+((admitted l calls).filter (inWindow key t₁ t₂)).length : Nat) : ℚ) ≤
      burst+rps*(t₂-t₁) := by
  induction calls generalizing l n τ with
  | nil => exact h.bound
  | cons c calls ih =>
    obtain ⟨hc, htimed⟩ := List.pairwise_cons.mp htimed
    have hnow := hτ c List.mem_cons_self
    obtain ⟨hcall, hrun'⟩ := hrun.call (hkeys c List.mem_cons_self) hK hrps hburst hnow
    have hrest := ih (h.call hrun hcall hrps hburst hnow) hrun'
      (fun a ha => hkeys a (List.mem_cons_of_mem c ha)) htimed hc
    rw [admitted, Trace.outputs, List.filter_append, List.length_append, ← Nat.add_assoc]
    exact hrest

def Refilled (rps burst s : ℚ) (key : String) (l : RateLimiter) : Prop :=
  ∀ b, l.buckets.lookup key=some b → min burst (rps*(b.updated-s)) ≤ b.tokens

theorem filled_refilled {s now : ℚ} {b : TokenBucket} (h : min burst (rps*(b.updated-s)) ≤ b.tokens)
    (hsane : Sane rps burst b) (hrps : 0 < rps) (hnow : b.updated ≤ now) :
    min burst (rps*(now-s)) ≤ b.filled now := by
  have hmore : 0 ≤ (now-b.updated)*rps := mul_nonneg (sub_nonneg.mpr hnow) hrps.le
  rw [filled_eq hsane hnow]
  refine le_min (min_le_left _ _) ?_
  obtain hle | hle := min_le_iff.mp h
  · exact (min_le_left _ _).trans (by linarith)
  · refine (min_le_right _ _).trans ?_
    calc rps*(now-s)=rps*(b.updated-s)+(now-b.updated)*rps := by ring
      _ ≤ b.tokens+(now-b.updated)*rps := by linarith

theorem Refilled.bucket {s τ now : ℚ} (h : Refilled rps burst s key l)
    (hrun : Running rps burst K τ l) (hrps : 0 < rps) (hburst : 0 ≤ burst) (hτ : τ ≤ now) :
    min burst (rps*(now-s)) ≤ (l.bucket key now).filled now := by
  obtain ⟨hsane, hpast⟩ := hrun.bucket hburst hτ key
  cases hb : l.buckets.lookup key with
  | none =>
    have hnew : l.bucket key now=.new burst rps now := by
      rw [RateLimiter.bucket, hb, hrun.table.rps, hrun.table.burst]
      rfl
    rw [hnew] at hsane ⊢
    rw [filled_eq hsane (le_refl now)]
    simp [TokenBucket.new]
  | some b =>
    have hold : l.bucket key now=b := by
      rw [RateLimiter.bucket, hb]
      rfl
    rw [hold] at hsane hpast ⊢
    exact filled_refilled (h b hb) hsane hrps hpast

theorem Refilled.call {s τ : ℚ} (h : Refilled rps burst s key l) (hrun : Running rps burst K τ l)
    {c : Call} (hcall : Called l c) (hrun' : Running rps burst K c.now (after l c))
    (hrps : 0 < rps) (hburst : 0 ≤ burst) (hτ : τ ≤ c.now)
    (hearly : admits l c=true → c.key=key → c.now ≤ s) : Refilled rps burst s key (after l c) := by
  intro b hb
  have hsane := hrun'.sane key b hb
  rw [hcall.lookup] at hb
  split at hb
  · next hk =>
    cases hb
    have hfilled := h.bucket hrun hrps hburst hτ
    rw [hcall.admits] at hearly
    rw [hk] at hfilled hearly
    rw [allow_updated]
    by_cases hone : 1 ≤ (l.bucket c.key c.now).filled c.now
    · -- an admitted call is no later than the pause began
      have hle := hearly (by rw [TokenBucket.allow, if_pos hone]) rfl
      have hneg : rps*(c.now-s) ≤ 0 := mul_nonpos_of_nonneg_of_nonpos hrps.le (by linarith)
      exact (min_le_right _ _).trans (hneg.trans hsane.nonneg)
    · rw [TokenBucket.allow, if_neg hone]
      exact hfilled
  · exact h b hb

theorem Refilled.run {s τ : ℚ} (h : Refilled rps burst s key l) (hrun : Running rps burst K τ l)
    {calls : List Call} (hkeys : ∀ c∈calls, c.key∈K) (hK : K.length ≤ maxBuckets)
    (hrps : 0 < rps) (hburst : 0 ≤ burst) (htimed : Timed calls) (hτ : ∀ c∈calls, τ ≤ c.now)
    (hearly : ∀ a∈admitted l calls, a.key=key → a.now ≤ s) :
    Refilled rps burst s key (Trace.exec after l calls) := by
  induction calls generalizing l τ with
  | nil => exact h
  | cons c calls ih =>
    obtain ⟨hc, htimed⟩ := List.pairwise_cons.mp htimed
    have hnow := hτ c List.mem_cons_self
    obtain ⟨hcall, hrun'⟩ := hrun.call (hkeys c List.mem_cons_self) hK hrps hburst hnow
    have hfirst : admits l c=true → c.key=key → c.now ≤ s := by
      intro ha
      refine hearly c ?_
      rw [admitted, Trace.outputs, if_pos ha]
      exact List.mem_append_left _ List.mem_cons_self
    refine ih (h.call hrun hcall hrun' hrps hburst hnow hfirst) hrun'
      (fun a ha => hkeys a (List.mem_cons_of_mem c ha)) htimed hc ?_
    intro a ha
    exact hearly a (List.mem_append_right _ ha)

end Key

section Start
variable {rps burst : ℚ} {calls : List Call}

def FewKeys (calls : List Call) : Prop := (calls.map Call.key).dedup.length ≤ maxBuckets

theorem mem_keys {c : Call} (hc : c∈calls) : c.key∈(calls.map Call.key).dedup :=
  List.mem_dedup.mpr (List.mem_map_of_mem hc)

theorem exists_earlier (htimed : Timed calls) : ∃ τ, ∀ c∈calls, τ ≤ c.now := by
  cases calls with
  | nil => exact ⟨0, List.forall_mem_nil _⟩
  | cons c calls =>
    refine ⟨c.now, ?_⟩
    intro a ha
    obtain rfl | ha := List.mem_cons.mp ha
    · exact le_refl a.now
    · exact (List.pairwise_cons.mp htimed).1 a ha

theorem window_bound (hrps : 0 < rps) (hburst : 0 ≤ burst) (htimed : Timed calls)
    (hfew : FewKeys calls) (key : String) {t₁ t₂ : ℚ} (ht : t₁ ≤ t₂) :
    (((admitted (start rps burst) calls).filter (inWindow key t₁ t₂)).length : ℚ) ≤
      burst+rps*(t₂-t₁) := by
  obtain ⟨τ, hτ⟩ := exists_earlier htimed
  have hroom : 0 ≤ rps*(t₂-t₁) := mul_nonneg hrps.le (sub_nonneg.mpr ht)
  have hmeter : Meter rps burst key t₁ t₂ 0 (start rps burst) := by
    refine ⟨?_, fun _ => rfl, fun b hb => by cases hb⟩
    rw [Nat.cast_zero]
    linarith
  have hrun := hmeter.run (Running.initial τ) (fun c hc => mem_keys hc) hfew hrps hburst htimed hτ
  rwa [Nat.zero_add] at hrun

theorem admitted_after_pause (hrps : 0 < rps) (hburst : 1 ≤ burst) (htimed : Timed calls)
    (hfew : FewKeys calls) {before : List Call} {c : Call} (hpre : before++[c]<+:calls)
    (hpause : ∀ a∈admitted (start rps burst) before, a.key=c.key → a.now ≤ c.now-1/rps) :
    admits (Trace.exec after (start rps burst) before) c=true := by
  have hnonneg : 0 ≤ burst := zero_le_one.trans hburst
  have hmem : ∀ a∈before++[c], a∈calls := fun a ha => hpre.subset ha
  have hkeys : ∀ a∈before, a.key∈(calls.map Call.key).dedup :=
    fun a ha => mem_keys (hmem a (List.mem_append_left _ ha))
  have hkey : c.key∈(calls.map Call.key).dedup :=
    mem_keys (hmem c (List.mem_append_right _ List.mem_cons_self))
  obtain ⟨hbefore, _, hlast⟩ := List.pairwise_append.mp (htimed.sublist hpre.sublist)
  have hle : ∀ a∈before, a.now ≤ c.now := fun a ha => hlast a ha c List.mem_cons_self
  obtain ⟨τ, hτ⟩ := exists_earlier htimed
  have hτc : τ ≤ c.now := hτ c (hmem c (List.mem_append_right _ List.mem_cons_self))
  have hτ' : ∀ a∈before, τ ≤ a.now := fun a ha => hτ a (hmem a (List.mem_append_left _ ha))
  have hrunning := run_running (Running.initial τ) hkeys hfew hrps hnonneg hbefore hτ' hle hτc
  have hrefilled : Refilled rps burst (c.now-1/rps) c.key
      (Trace.exec after (start rps burst) before) :=
    Refilled.run (fun b hb => by cases hb) (Running.initial τ) hkeys hfew hrps hnonneg hbefore hτ'
      hpause
  have hfilled := hrefilled.bucket hrunning hrps hnonneg (le_refl c.now)
  have hone : rps*(c.now-(c.now-1/rps))=1 := by
    rw [sub_sub_cancel, mul_one_div_cancel hrps.ne']
  rw [hone, min_eq_right hburst] at hfilled
  rw [(hrunning.call hkey hfew hrps hnonneg (le_refl c.now)).1.admits, TokenBucket.allow,
    if_pos hfilled]

theorem token_bucket_bound (hrps : 0 < rps) (hburst : 0 ≤ burst) (htimed : Timed calls) :
    (FewKeys calls →
      (∀ key t₁ t₂, t₁ ≤ t₂ →
        (((admitted (start rps burst) calls).filter (inWindow key t₁ t₂)).length : ℚ) ≤
          burst+rps*(t₂-t₁)) ∧
      (1 ≤ burst → ∀ before c, before++[c]<+:calls →
        (∀ a∈admitted (start rps burst) before, a.key=c.key → a.now ≤ c.now-1/rps) →
        admits (Trace.exec after (start rps burst) before) c=true)) ∧
    ∀ before, before<+:calls →
      (∀ p∈(Trace.exec after (start rps burst) before).buckets,
        0 ≤ p.2.tokens ∧ p.2.tokens ≤ burst) ∧
      (Trace.exec after (start rps burst) before).buckets.length ≤ maxBuckets := by
  refine ⟨?_, ?_⟩
  · intro hfew
    refine ⟨fun key t₁ t₂ ht => window_bound hrps hburst htimed hfew key ht, ?_⟩
    intro hone before c hpre hpause
    exact admitted_after_pause hrps hone htimed hfew hpre hpause
  · intro before _
    have hbounded := Bounded.run Bounded.initial hrps hburst before
    exact ⟨fun p hp => ⟨(hbounded.sane p hp).nonneg, (hbounded.sane p hp).le_burst⟩,
      hbounded.length_le⟩

def fourCalls : List Call := [⟨"k", 0⟩, ⟨"k", 0⟩, ⟨"k", 0⟩, ⟨"k", 1/2⟩]

/-- Two are admitted at once, and the last one. -/
theorem token_bucket_bound_fourCalls :
    (((admitted (start 2 2) fourCalls).filter (inWindow "k" 0 (1/2))).length : ℚ) ≤
      2+2*(1/2-0) ∧
    ((admitted (start 2 2) fourCalls).filter (inWindow "k" 0 (1/2))).length=3 ∧
    admits (Trace.exec after (start 2 2) (fourCalls.take 3)) ⟨"k", 1/2⟩=true := by
  have htimed : Timed fourCalls := by
    rw [Timed]
    decide +kernel
  have hfew : FewKeys fourCalls := by
    rw [FewKeys]
    decide +kernel
  have htwo : (0 : ℚ) < 2 := by norm_num
  obtain ⟨hbound, hpause⟩ := (token_bucket_bound htwo htwo.le htimed).1 hfew
  refine ⟨hbound "k" 0 (1/2) (by norm_num), by decide +kernel, ?_⟩
  exact hpause (by norm_num) (fourCalls.take 3) ⟨"k", 1/2⟩ (by decide +kernel) (by decide +kernel)

end Start
end Sovereign.RateLimit
