import Sovereign.Trace
import Mathlib.Algebra.Order.Ring.Rat

/-! `RotatingSecretsProvider`: any number of `get` and `force_expire` calls at a time. A call
takes one step for each read of the clock, lock section or read of the backend. -/
namespace Sovereign.Rotating

/-- A value and when the backend gave it, by the steps of the run and by the clock. The
provider keeps the value only. -/
structure Reading where
  value : String
  moment : Nat
  time : ℚ
deriving DecidableEq

structure Entry where
  stamp : ℚ
  reading : Reading
deriving DecidableEq

/-- `after` are the starts of the `force_expire` calls that had returned when the `get` was
called. -/
structure Get where
  name : String
  after : List Nat
deriving DecidableEq

inductive Call where
  | called (g : Get)
  | locking (g : Get) (now : ℚ)
  | fetching (g : Get) (now : ℚ)
  | storing (g : Get) (now : ℚ) (reading : Reading)
  | expiring
  | expired
deriving DecidableEq

/-- Calls go by the moment of their start. `cleared` and `returned` are the starts of the
`force_expire` calls that have cleared the cache and that have returned. -/
structure State where
  clock : ℚ := 0
  moment : Nat := 0
  cache : List (String × Entry) := []
  calls : List (Nat × Call) := []
  cleared : List Nat := []
  returned : List Nat := []
deriving DecidableEq

/-- `resume` is the next step of a call; `outcome` is the backend's answer where the step reads
it. -/
inductive Action where
  | advance (reading : ℚ)
  | get (name : String)
  | forceExpire
  | resume (id : Nat) (outcome : Except String String)

def State.goTo (s : State) (id : Nat) (c : Call) : State :=
  { s with calls := s.calls.map fun p => if p.1=id then (id, c) else p }

def State.done (s : State) (id : Nat) : State :=
  { s with calls := s.calls.filter fun p => decide (p.1≠id) }

def put (name : String) (e : Entry) (cache : List (String × Entry)) : List (String × Entry) :=
  (name, e)::cache.filter fun p => decide (p.1≠name)

section Provider
variable (ttl : ℚ)

def State.hit (s : State) (name : String) (now : ℚ) : Option Entry :=
  (s.cache.lookup name).filter fun e => decide (now-e.stamp < ttl)

def State.resume (s : State) (id : Nat) (outcome : Except String String) : State :=
  match s.calls.lookup id with
  | none => s
  | some (.called g) => s.goTo id (.locking g s.clock)
  | some (.locking g now) =>
    match s.hit ttl g.name now with
    | some _ => s.done id
    | none => s.goTo id (.fetching g now)
  | some (.fetching g now) =>
    match outcome with
    | .error _ => s.done id
    | .ok value => s.goTo id (.storing g now ⟨value, s.moment, s.clock⟩)
  | some (.storing g now reading) =>
    { s.done id with cache := put g.name ⟨now, reading⟩ s.cache }
  | some .expiring => { s.goTo id .expired with cache := [], cleared := id::s.cleared }
  | some .expired => { s.done id with returned := id::s.returned }

def step (s : State) (a : Action) : State :=
  let s' := match a with
    | .advance reading => { s with clock := max s.clock reading }
    | .get name => { s with calls := s.calls++[(s.moment, Call.called ⟨name, s.returned⟩)] }
    | .forceExpire => { s with calls := s.calls++[(s.moment, Call.expiring)] }
    | .resume id outcome => s.resume ttl id outcome
  { s' with moment := s.moment+1 }

structure Answer where
  id : Nat
  get : Get
  now : ℚ
  reading : Reading
deriving DecidableEq

def answered (s : State) : Action → Option Answer
  | .resume id _ =>
    match s.calls.lookup id with
    | some (.locking g now) => (s.hit ttl g.name now).map fun e => ⟨id, g, now, e.reading⟩
    | some (.storing g now reading) => some ⟨id, g, now, reading⟩
    | _ => none
  | _ => none

end Provider

section Steps
variable {ttl : ℚ} {s : State}

theorem mem_of_lookup {k : Nat} {c : Call} (h : s.calls.lookup k=some c) : (k, c)∈s.calls := by
  obtain ⟨before, after, he, _⟩ := List.lookup_eq_some_iff.mp h
  rw [he]
  exact List.mem_append_right _ List.mem_cons_self

theorem mem_goTo {id : Nat} {c : Call} {p : Nat × Call} (h : p∈(s.goTo id c).calls) :
    p=(id, c) ∨ p∈s.calls := by
  obtain ⟨q, hq, he⟩ := List.mem_map.mp h
  split at he
  · exact .inl he.symm
  · exact .inr (he ▸ hq)

theorem mem_done {id : Nat} {p : Nat × Call} (h : p∈(s.done id).calls) : p∈s.calls :=
  (List.mem_filter.mp h).1

section Calls
variable {P : Nat × Call → Prop}

theorem calls_goTo (h : ∀ p∈s.calls, P p) {id : Nat} {c : Call} (hc : P (id, c)) :
    ∀ p∈(s.goTo id c).calls, P p := by
  intro p hp
  obtain rfl | hp := mem_goTo hp
  · exact hc
  · exact h p hp

theorem calls_done (h : ∀ p∈s.calls, P p) (id : Nat) : ∀ p∈(s.done id).calls, P p :=
  fun p hp => h p (mem_done hp)

theorem calls_started (h : ∀ p∈s.calls, P p) {id : Nat} {c : Call} (hc : P (id, c)) :
    ∀ p∈s.calls++[(id, c)], P p :=
  List.forall_mem_append.mpr ⟨h, List.forall_mem_singleton.mpr hc⟩

end Calls

theorem mem_put {name : String} {e : Entry} {cache : List (String × Entry)} {p : String × Entry}
    (h : p∈put name e cache) : p=(name, e) ∨ p∈cache := by
  obtain h | h := List.mem_cons.mp h
  · exact .inl h
  · exact .inr (List.mem_filter.mp h).1

inductive Moves (ttl : ℚ) (s : State) : Action → State → Prop where
  | advanced (reading : ℚ) :
    Moves ttl s (.advance reading) { s with clock := max s.clock reading, moment := s.moment+1 }
  | called (name : String) :
    Moves ttl s (.get name)
      { s with
        calls := s.calls++[(s.moment, Call.called ⟨name, s.returned⟩)], moment := s.moment+1 }
  | expires :
    Moves ttl s .forceExpire
      { s with calls := s.calls++[(s.moment, Call.expiring)], moment := s.moment+1 }
  | unknown (id : Nat) (outcome : Except String String) :
    Moves ttl s (.resume id outcome) { s with moment := s.moment+1 }
  | looked (id : Nat) (outcome : Except String String) (g : Get) (h : (id, .called g)∈s.calls) :
    Moves ttl s (.resume id outcome) { s.goTo id (.locking g s.clock) with moment := s.moment+1 }
  | missed (id : Nat) (outcome : Except String String) (g : Get) (now : ℚ)
      (h : (id, .locking g now)∈s.calls) :
    Moves ttl s (.resume id outcome) { s.goTo id (.fetching g now) with moment := s.moment+1 }
  | left (id : Nat) (outcome : Except String String) :
    Moves ttl s (.resume id outcome) { s.done id with moment := s.moment+1 }
  | fetched (id : Nat) (g : Get) (now : ℚ) (value : String)
      (h : s.calls.lookup id=some (.fetching g now)) :
    Moves ttl s (.resume id (.ok value))
      { s.goTo id (.storing g now ⟨value, s.moment, s.clock⟩) with moment := s.moment+1 }
  | stored (id : Nat) (outcome : Except String String) (g : Get) (now : ℚ) (reading : Reading)
      (h : s.calls.lookup id=some (.storing g now reading)) :
    Moves ttl s (.resume id outcome)
      { s.done id with cache := put g.name ⟨now, reading⟩ s.cache, moment := s.moment+1 }
  | clears (id : Nat) (outcome : Except String String) (h : (id, .expiring)∈s.calls) :
    Moves ttl s (.resume id outcome)
      { s.goTo id .expired with cache := [], cleared := id::s.cleared, moment := s.moment+1 }
  | returns (id : Nat) (outcome : Except String String) (h : (id, .expired)∈s.calls) :
    Moves ttl s (.resume id outcome)
      { s.done id with returned := id::s.returned, moment := s.moment+1 }

theorem step_moves (ttl : ℚ) (s : State) (a : Action) : Moves ttl s a (step ttl s a) := by
  cases a with
  | advance reading => exact .advanced reading
  | get name => exact .called name
  | forceExpire => exact .expires
  | resume id outcome =>
    simp only [step, State.resume]
    cases hl : s.calls.lookup id with
    | none => exact .unknown id outcome
    | some c =>
      have hm := mem_of_lookup hl
      cases c with
      | called g => exact .looked id outcome g hm
      | locking g now =>
        dsimp only
        cases s.hit ttl g.name now with
        | some e => exact .left id outcome
        | none => exact .missed id outcome g now hm
      | fetching g now =>
        cases outcome with
        | error e => exact .left id _
        | ok value => exact .fetched id g now value hl
      | storing g now reading => exact .stored id outcome g now reading hl
      | expiring => exact .clears id outcome hm
      | expired => exact .returns id outcome hm

end Steps

section Readings
variable {ttl clock : ℚ} {past : List Action}

/-- `id` has read `name` at a step of the run, and this is what the backend answered. -/
def Given (ttl clock : ℚ) (past : List Action) (id : Nat) (name : String) (reading : Reading) :
    Prop :=
  ∃ before after g now, past=before++.resume id (.ok reading.value)::after ∧
    (Trace.exec (step ttl) { clock := clock } before).calls.lookup id=some (.fetching g now) ∧
    g.name=name ∧ reading.moment=before.length ∧
    reading.time=(Trace.exec (step ttl) { clock := clock } before).clock

theorem Given.append {id : Nat} {name : String} {reading : Reading}
    (h : Given ttl clock past id name reading) (a : Action) :
    Given ttl clock (past++[a]) id name reading := by
  obtain ⟨before, after, g, now, rfl, h⟩ := h
  exact ⟨before, after++[a], g, now, by simp, h⟩

def Call.Sourced (ttl clock : ℚ) (past : List Action) (id : Nat) : Call → Prop
  | .called g | .locking g _ | .fetching g _ => past[id]?=some (.get g.name)
  | .storing g _ reading =>
    past[id]?=some (.get g.name) ∧ Given ttl clock past id g.name reading
  | .expiring | .expired => True

theorem getElem?_append_of_some {id : Nat} {b : Action} (h : past[id]?=some b) (a : Action) :
    (past++[a])[id]?=some b := by
  rw [List.getElem?_append_left (List.getElem?_eq_some_iff.mp h).1, h]

theorem Call.Sourced.append {id : Nat} {c : Call} (h : c.Sourced ttl clock past id)
    (a : Action) : c.Sourced ttl clock (past++[a]) id := by
  cases c with
  | called g | locking g now | fetching g now => exact getElem?_append_of_some h a
  | storing g now reading => exact ⟨getElem?_append_of_some h.1 a, h.2.append a⟩
  | expiring | expired => trivial

structure Sourced (ttl clock : ℚ) (past : List Action) (s : State) : Prop where
  reached : s=Trace.exec (step ttl) { clock := clock } past
  moment : s.moment=past.length
  entries : ∀ p∈s.cache, ∃ id, Given ttl clock past id p.1 p.2.reading
  calls : ∀ p∈s.calls, p.2.Sourced ttl clock past p.1

theorem Sourced.initial (ttl clock : ℚ) : Sourced ttl clock [] { clock := clock } where
  reached := rfl
  moment := rfl
  entries := fun p h => by cases h
  calls := fun p h => by cases h

theorem moment_step (ttl : ℚ) (s : State) (a : Action) : (step ttl s a).moment=s.moment+1 := by
  have hmoves := step_moves ttl s a
  generalize step ttl s a=s' at hmoves ⊢
  cases hmoves <;> rfl

theorem tables_step {s : State} (h : Sourced ttl clock past s) (a : Action) :
    (∀ p∈(step ttl s a).cache, ∃ id, Given ttl clock (past++[a]) id p.1 p.2.reading) ∧
      ∀ p∈(step ttl s a).calls, p.2.Sourced ttl clock (past++[a]) p.1 := by
  have hentries : ∀ p∈s.cache, ∃ id, Given ttl clock (past++[a]) id p.1 p.2.reading :=
    fun p hp => (h.entries p hp).imp fun _ hid => hid.append a
  have hkept : ∀ p∈s.calls, p.2.Sourced ttl clock (past++[a]) p.1 := fun p hp =>
    (h.calls p hp).append a
  have hstart : (past++[a])[s.moment]?=some a := by rw [h.moment, List.getElem?_concat_length]
  have hmoves := step_moves ttl s a
  generalize step ttl s a=s' at hmoves ⊢
  cases hmoves with
  | advanced reading => exact ⟨hentries, hkept⟩
  | called name => exact ⟨hentries, calls_started hkept hstart⟩
  | expires => exact ⟨hentries, calls_started hkept trivial⟩
  | unknown id outcome => exact ⟨hentries, hkept⟩
  | looked id outcome g hm => exact ⟨hentries, calls_goTo hkept (hkept (id, .called g) hm)⟩
  | missed id outcome g now hm => exact ⟨hentries, calls_goTo hkept (hkept (id, .locking g now) hm)⟩
  | left id outcome => exact ⟨hentries, calls_done hkept id⟩
  | fetched id g now value hl =>
    -- the step itself is the read
    have hgiven : Given ttl clock (past++[.resume id (.ok value)]) id g.name
        ⟨value, s.moment, s.clock⟩ :=
      ⟨past, [], g, now, rfl, h.reached ▸ hl, rfl, h.moment, h.reached ▸ rfl⟩
    exact ⟨hentries, calls_goTo hkept ⟨hkept (id, .fetching g now) (mem_of_lookup hl), hgiven⟩⟩
  | stored id outcome g now reading hl =>
    refine ⟨fun p hp => ?_, calls_done hkept id⟩
    obtain rfl | hp := mem_put hp
    · exact ⟨id, (hkept (id, .storing g now reading) (mem_of_lookup hl)).2⟩
    · exact hentries p hp
  | clears id outcome hm => exact ⟨fun p hp => (by cases hp), calls_goTo hkept trivial⟩
  | returns id outcome hm => exact ⟨hentries, calls_done hkept id⟩

theorem sourced_step {s : State} (h : Sourced ttl clock past s) (a : Action) :
    Sourced ttl clock (past++[a]) (step ttl s a) where
  reached := by
    rw [Trace.exec_append, ← h.reached]
    rfl
  moment := by rw [moment_step, h.moment, List.length_append, List.length_singleton]
  entries := (tables_step h a).1
  calls := (tables_step h a).2

theorem sourced (ttl clock : ℚ) (past : List Action) :
    Sourced ttl clock past (Trace.exec (step ttl) { clock := clock } past) :=
  Trace.exec_history (Sourced ttl clock) (fun _ _ a h => sourced_step h a)
    (Sourced.initial ttl clock) past

/-- The answer of a step: from an entry that is not too old, or the reading of this call. -/
theorem answered_cases {s : State} {a : Action} {x : Answer} (h : answered ttl s a=some x) :
    (∃ e, (x.id, .locking x.get x.now)∈s.calls ∧ (x.get.name, e)∈s.cache ∧
      x.now-e.stamp < ttl ∧ x.reading=e.reading) ∨
    s.calls.lookup x.id=some (.storing x.get x.now x.reading) := by
  cases a with
  | advance reading => cases h
  | get name => cases h
  | forceExpire => cases h
  | resume id outcome =>
    simp only [answered] at h
    split at h
    · next g now hl =>
      obtain ⟨e, he, rfl⟩ := Option.map_eq_some_iff.mp h
      obtain ⟨hlookup, hage⟩ := Option.filter_eq_some_iff.mp he
      obtain ⟨before, after, hcache, _⟩ := List.lookup_eq_some_iff.mp hlookup
      refine .inl ⟨e, mem_of_lookup hl, ?_, of_decide_eq_true hage, rfl⟩
      rw [hcache]
      exact List.mem_append_right _ List.mem_cons_self
    · next g now reading hl =>
      cases h
      exact .inr hl
    · cases h

theorem Sourced.answered {s : State} (h : Sourced ttl clock past s) {a : Action} {x : Answer}
    (hx : answered ttl s a=some x) :
    past[x.id]?=some (.get x.get.name) ∧
      ∃ id, Given ttl clock past id x.get.name x.reading := by
  obtain ⟨e, hcall, hcache, -, hreading⟩ | hl := answered_cases hx
  · exact ⟨h.calls _ hcall, hreading ▸ h.entries _ hcache⟩
  · obtain ⟨hget, hgiven⟩ := h.calls _ (mem_of_lookup hl)
    exact ⟨hget, x.id, hgiven⟩

end Readings

section Staleness
variable {ttl : ℚ} {s : State}

/-- A call's clock reading is past, and what it stores was read after it. -/
def Call.Dated (clock : ℚ) (id moment : Nat) : Call → Prop
  | .locking _ now | .fetching _ now => now ≤ clock ∧ id < moment
  | .storing _ now reading => now ≤ reading.time ∧ id < reading.moment
  | _ => id < moment

theorem Call.Dated.mono {clock clock' : ℚ} {id moment : Nat} {c : Call}
    (h : c.Dated clock id moment) (hclock : clock ≤ clock') :
    c.Dated clock' id (moment+1) := by
  cases c with
  | locking g now | fetching g now => exact ⟨h.1.trans hclock, Nat.lt_succ_of_lt h.2⟩
  | storing g now reading => exact h
  | called g | expiring | expired => exact Nat.lt_succ_of_lt h

structure Dated (s : State) : Prop where
  entries : ∀ p∈s.cache, p.2.stamp ≤ p.2.reading.time
  calls : ∀ p∈s.calls, p.2.Dated s.clock p.1 s.moment

theorem Dated.initial (clock : ℚ) : Dated { clock := clock } where
  entries := fun p h => by cases h
  calls := fun p h => by cases h

theorem dated_step (h : Dated s) (a : Action) : Dated (step ttl s a) := by
  have hkept : ∀ p∈s.calls, p.2.Dated s.clock p.1 (s.moment+1) := fun p hp =>
    (h.calls p hp).mono le_rfl
  have hmoves := step_moves ttl s a
  generalize step ttl s a=s' at hmoves ⊢
  cases hmoves with
  | advanced reading => exact ⟨h.entries, fun p hp => (h.calls p hp).mono (le_max_left _ _)⟩
  | called name => exact ⟨h.entries, calls_started hkept (Nat.lt_succ_self _)⟩
  | expires => exact ⟨h.entries, calls_started hkept (Nat.lt_succ_self _)⟩
  | unknown id outcome => exact ⟨h.entries, hkept⟩
  | looked id outcome g hm => exact ⟨h.entries, calls_goTo hkept ⟨le_rfl, hkept _ hm⟩⟩
  | missed id outcome g now hm =>
    exact ⟨h.entries, calls_goTo hkept (hkept (id, .locking g now) hm)⟩
  | left id outcome => exact ⟨h.entries, calls_done hkept id⟩
  | fetched id g now value hl =>
    exact ⟨h.entries, calls_goTo hkept (h.calls _ (mem_of_lookup hl))⟩
  | stored id outcome g now reading hl =>
    refine ⟨fun p hp => ?_, calls_done hkept id⟩
    obtain rfl | hp := mem_put hp
    · exact (h.calls _ (mem_of_lookup hl)).1
    · exact h.entries p hp
  | clears id outcome hm =>
    exact ⟨fun p hp => (by cases hp), calls_goTo hkept (hkept (id, .expiring) hm)⟩
  | returns id outcome hm => exact ⟨h.entries, calls_done hkept id⟩

theorem dated (clock : ℚ) (past : List Action) :
    Dated (Trace.exec (step ttl) { clock := clock } past) :=
  Trace.Along.invariant Dated (fun _ => True) (fun _ a _ h _ => dated_step h a)
    (Dated.initial clock) (fun _ _ => trivial) (Trace.Along.of_true _ past)

/-- A `get` returns a value that the backend gave for its name, within the time to live before
its clock reading or to this very call; an error of the backend leaves the cache. -/
structure Bounded (ttl clock : ℚ) (past : List Action) (a : Action) : Prop where
  returned : ∀ x∈answered ttl (Trace.exec (step ttl) { clock := clock } past) a,
    past[x.id]?=some (.get x.get.name) ∧
      ∃ id, Given ttl clock past id x.get.name x.reading ∧
        (x.now-ttl < x.reading.time ∨ id=x.id ∧ x.id < x.reading.moment)
  failed : ∀ id e g now, a=.resume id (.error e) →
    (Trace.exec (step ttl) { clock := clock } past).calls.lookup id=some (.fetching g now) →
    (Trace.exec (step ttl) { clock := clock } (past++[a])).cache=
      (Trace.exec (step ttl) { clock := clock } past).cache

/-- In every run of concurrent calls and backend rotations, staleness is bounded at every step. -/
theorem staleness_bounded (ttl clock : ℚ) (past : List Action) (a : Action) :
    Bounded ttl clock past a where
  returned := by
    intro x hx
    have hsourced := sourced ttl clock past
    have hdated : Dated (Trace.exec (step ttl) { clock := clock } past) := dated clock past
    obtain ⟨e, hcall, hcache, hage, hreading⟩ | hl := answered_cases hx
    · obtain ⟨id, hgiven⟩ := hsourced.entries _ hcache
      have hstamp : e.stamp ≤ e.reading.time := hdated.entries _ hcache
      refine ⟨hsourced.calls _ hcall, id, hreading ▸ hgiven, .inl ?_⟩
      rw [hreading]
      linarith
    · obtain ⟨hget, hgiven⟩ := hsourced.calls _ (mem_of_lookup hl)
      exact ⟨hget, x.id, hgiven, .inr ⟨rfl, (hdated.calls _ (mem_of_lookup hl)).2⟩⟩
  failed := by
    intro id e g now ha hl
    subst ha
    simp only [Trace.exec_append, Trace.exec, step, State.resume, hl]
    rfl

/-- The backend has rotated: the cached value is returned for as long as it may be, a read that
fails leaves it, and a `get` after the time to live returns the new one. -/
def rotated : List Action :=
  [.get "db", .resume 0 (.ok ""), .resume 0 (.ok ""), .resume 0 (.ok "v1"), .resume 0 (.ok ""),
    .advance 59, .get "db", .resume 6 (.ok ""), .resume 6 (.ok ""),
    .advance 60, .get "db", .resume 10 (.ok ""), .resume 10 (.ok ""), .resume 10 (.error "down"),
    .get "db", .resume 14 (.ok ""), .resume 14 (.ok ""), .resume 14 (.ok "v2")]

theorem staleness_bounded_rotated :
    answered 60 (Trace.exec (step 60) { clock := 0 } (rotated.take 8)) (.resume 6 (.ok ""))=
        some ⟨6, ⟨"db", []⟩, 59, ⟨"v1", 3, 0⟩⟩ ∧
      answered 60 (Trace.exec (step 60) { clock := 0 } rotated) (.resume 14 (.ok ""))=
        some ⟨14, ⟨"db", []⟩, 60, ⟨"v2", 17, 60⟩⟩ ∧
      Bounded 60 0 (rotated.take 8) (.resume 6 (.ok "")) ∧
      Bounded 60 0 rotated (.resume 14 (.ok "")) :=
  ⟨by decide +kernel, by decide +kernel, staleness_bounded 60 0 (rotated.take 8) _,
    staleness_bounded 60 0 rotated _⟩

end Staleness

section Expiry
variable {ttl : ℚ} {s : State}

/-- A `get` called after a `force_expire` has returned yields what the backend gave for its name
after the start of the `force_expire`. -/
def TakesEffect (ttl clock : ℚ) (past : List Action) (a : Action) : Prop :=
  ∀ x∈answered ttl (Trace.exec (step ttl) { clock := clock } past) a,
    past[x.id]?=some (.get x.get.name) ∧
      (∃ id, Given ttl clock past id x.get.name x.reading) ∧ ∀ k∈x.get.after, k < x.reading.moment

/-- A reading that is stored is later than the start of each `force_expire` that has cleared
the cache. -/
def StoresCurrent (s : State) : Action → Prop
  | .resume id _ =>
    match s.calls.lookup id with
    | some (.storing _ _ reading) => ∀ k∈s.cleared, k < reading.moment
    | _ => True
  | _ => True

/-- The `force_expire` calls that a `get` comes after have cleared the cache, and what the `get`
has read is later. -/
def Call.Current (cleared : List Nat) (id moment : Nat) : Call → Prop
  | .called g | .locking g _ | .fetching g _ => ∀ k∈g.after, k∈cleared
  | .storing g _ reading => (∀ k∈g.after, k∈cleared) ∧ ∀ k∈g.after, k < reading.moment
  | .expiring => id < moment
  | .expired => id∈cleared

structure Current (s : State) : Prop where
  entries : ∀ p∈s.cache, ∀ k∈s.cleared, k < p.2.reading.moment
  cleared : ∀ k∈s.cleared, k < s.moment
  returned : ∀ k∈s.returned, k∈s.cleared
  calls : ∀ p∈s.calls, p.2.Current s.cleared p.1 s.moment

theorem Call.Current.mono {cleared cleared' : List Nat} {id moment : Nat} {c : Call}
    (h : c.Current cleared id moment) (hcleared : ∀ k∈cleared, k∈cleared') :
    c.Current cleared' id (moment+1) := by
  cases c with
  | called g | locking g now | fetching g now => exact fun k hk => hcleared k (h k hk)
  | storing g now reading => exact ⟨fun k hk => hcleared k (h.1 k hk), h.2⟩
  | expiring => exact Nat.lt_succ_of_lt h
  | expired => exact hcleared id h

theorem Current.initial (clock : ℚ) : Current { clock := clock } where
  entries := fun p h => by cases h
  cleared := fun k h => by cases h
  returned := fun k h => by cases h
  calls := fun p h => by cases h

theorem current_step (h : Current s) (a : Action) (hstore : StoresCurrent s a) :
    Current (step ttl s a) := by
  have hkept : ∀ p∈s.calls, p.2.Current s.cleared p.1 (s.moment+1) := fun p hp =>
    (h.calls p hp).mono fun _ hk => hk
  have hcleared : ∀ k∈s.cleared, k < s.moment+1 := fun k hk => Nat.lt_succ_of_lt (h.cleared k hk)
  have hmoves := step_moves ttl s a
  generalize step ttl s a=s' at hmoves ⊢
  cases hmoves with
  | advanced reading => exact ⟨h.entries, hcleared, h.returned, hkept⟩
  | called name => exact ⟨h.entries, hcleared, h.returned, calls_started hkept h.returned⟩
  | expires => exact ⟨h.entries, hcleared, h.returned, calls_started hkept (Nat.lt_succ_self _)⟩
  | unknown id outcome => exact ⟨h.entries, hcleared, h.returned, hkept⟩
  | looked id outcome g hm =>
    exact ⟨h.entries, hcleared, h.returned, calls_goTo hkept (h.calls _ hm)⟩
  | missed id outcome g now hm =>
    exact ⟨h.entries, hcleared, h.returned, calls_goTo hkept (h.calls _ hm)⟩
  | left id outcome =>
    exact ⟨h.entries, hcleared, h.returned, calls_done hkept id⟩
  | fetched id g now value hl =>
    have hafter : ∀ k∈g.after, k∈s.cleared := h.calls _ (mem_of_lookup hl)
    exact ⟨h.entries, hcleared, h.returned,
      calls_goTo hkept ⟨hafter, fun k hk => h.cleared k (hafter k hk)⟩⟩
  | stored id outcome g now reading hl =>
    refine ⟨fun p hp => ?_, hcleared, h.returned, calls_done hkept id⟩
    obtain rfl | hp := mem_put hp
    · simp only [StoresCurrent, hl] at hstore
      exact hstore
    · exact h.entries p hp
  | clears id outcome hm =>
    have hmore : ∀ k∈s.cleared, k∈id::s.cleared := fun k hk => List.mem_cons_of_mem _ hk
    refine ⟨fun p hp => (by cases hp), fun k hk => ?_, fun k hk => hmore k (h.returned k hk),
      calls_goTo (fun p hp => (h.calls p hp).mono hmore) List.mem_cons_self⟩
    obtain rfl | hk := List.mem_cons.mp hk
    · exact Nat.lt_succ_of_lt (h.calls _ hm)
    · exact hcleared k hk
  | returns id outcome hm =>
    refine ⟨h.entries, hcleared, fun k hk => ?_, calls_done hkept id⟩
    obtain rfl | hk := List.mem_cons.mp hk
    · exact h.calls _ hm
    · exact h.returned k hk

theorem Current.later (h : Current s) {a : Action} {x : Answer} (hx : answered ttl s a=some x) :
    ∀ k∈x.get.after, k < x.reading.moment := by
  intro k hk
  obtain ⟨e, hcall, hcache, -, hreading⟩ | hl := answered_cases hx
  · rw [hreading]
    exact h.entries _ hcache k (h.calls _ hcall k hk)
  · exact (h.calls _ (mem_of_lookup hl)).2 k hk

/-- In every run in which no `get` stores a value read before the start of a `force_expire`
that has cleared the cache, `force_expire` takes effect at every step. -/
theorem force_expire_takes_effect (ttl clock : ℚ) (run : List Action)
    (h : Trace.Along (step ttl) StoresCurrent { clock := clock } run) :
    ∀ past a rest, run=past++a::rest → TakesEffect ttl clock past a := by
  intro past a rest hrun x hx
  have hcurrent : Current (Trace.exec (step ttl) { clock := clock } past) :=
    Trace.Along.invariant Current (fun _ => True) (fun _ a _ hs hc => current_step hs a hc)
      (Current.initial clock) (fun _ _ => trivial) (Trace.Along.append_iff.mp (hrun ▸ h)).1
  obtain ⟨hget, hgiven⟩ := (sourced ttl clock past).answered hx
  exact ⟨hget, hgiven, hcurrent.later hx⟩

instance (s : State) : ∀ a : Action, Decidable (StoresCurrent s a)
  | .resume id _ =>
    match h : s.calls.lookup id with
    | some (.storing _ _ reading) =>
      decidable_of_iff (∀ k∈s.cleared, k < reading.moment) (by rw [StoresCurrent, h])
    | none => isTrue (by rw [StoresCurrent, h]; trivial)
    | some (.called _) | some (.locking ..) | some (.fetching ..) | some .expiring
    | some .expired => isTrue (by rw [StoresCurrent, h]; trivial)
  | .advance _ | .get _ | .forceExpire => isTrue trivial

def cutover : List Action :=
  [.get "db", .resume 0 (.ok ""), .resume 0 (.ok ""), .resume 0 (.ok "v1"), .resume 0 (.ok ""),
    .forceExpire, .resume 5 (.ok ""), .resume 5 (.ok ""),
    .get "db", .resume 8 (.ok ""), .resume 8 (.ok ""), .resume 8 (.ok "v2"), .resume 8 (.ok "")]

theorem cutover_takes_effect :
    answered 60 (Trace.exec (step 60) { clock := 0 } cutover.dropLast) (.resume 8 (.ok ""))=
        some ⟨8, ⟨"db", [5]⟩, 0, ⟨"v2", 11, 0⟩⟩ ∧
      TakesEffect 60 0 cutover.dropLast (.resume 8 (.ok "")) :=
  ⟨by decide +kernel,
    force_expire_takes_effect 60 0 cutover (by decide +kernel) cutover.dropLast _ [] rfl⟩

def overtaken : List Action :=
  [.get "db", .resume 0 (.ok ""), .resume 0 (.ok ""), .resume 0 (.ok "v1"),
    .forceExpire, .resume 4 (.ok ""), .resume 4 (.ok ""), .resume 0 (.ok ""),
    .get "db", .resume 8 (.ok "")]

theorem overtaken_get_is_stale :
    answered 60 (Trace.exec (step 60) { clock := 0 } overtaken) (.resume 8 (.ok ""))=
        some ⟨8, ⟨"db", [4]⟩, 0, ⟨"v1", 3, 0⟩⟩ ∧
      ¬ TakesEffect 60 0 overtaken (.resume 8 (.ok "")) := by
  refine ⟨by decide +kernel, fun h => ?_⟩
  have hlater := (h ⟨8, ⟨"db", [4]⟩, 0, ⟨"v1", 3, 0⟩⟩ (by decide +kernel)).2.2 4 (by decide)
  exact absurd hlater (by decide)

end Expiry
end Sovereign.Rotating
