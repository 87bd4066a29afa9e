import Sovereign.Steps

/-! Handlers interleave at their awaits, and every write-back is of a whole record. Two
things can go wrong: a write-back undoes an update made meanwhile, or brings back a
record deleted meanwhile. Both are excluded along runs in which an update, a provision
or a deletion finds no copy of its record in flight. -/
namespace Sovereign.Broker
open Sovereign

/-- What an update request decides about a record. -/
structure Desired where
  planId : String
  parameters : LbParameters
  version : Int
deriving DecidableEq

def desired (inst : ServiceInstance) : Desired :=
  { planId := inst.planId, parameters := inst.parameters, version := inst.version }

def SameDesired (c x : ServiceInstance) : Prop :=
  x.instanceId=c.instanceId ∧ desired x=desired c

theorem sameDesired_equivalence : Equivalence SameDesired where
  refl := fun _ => ⟨rfl, rfl⟩
  symm := fun h => ⟨h.1.symm, h.2.symm⟩
  trans := fun h h' => ⟨h'.1.trans h.1, h'.2.trans h.2⟩

theorem Touched.sameDesired {c x : ServiceInstance} (h : Touched c x) : SameDesired c x := by
  refine ⟨h.instanceId, ?_⟩
  rw [desired, desired, h.planId, h.parameters, h.version]

def acknowledgedUpdate (s : State) (a : Env × Event) : Option ServiceInstance :=
  match a.2 with
  | .resume id _ =>
    match s.tasks.lookup id, reply s a with
    | some (.update inst _ _), some (.ok (.updated _)) => some inst
    | _, _ => none
  | _ => none

/-- A run, with what the last acknowledged update of an instance asked for, as long as
the instance is neither updated nor provisioned nor deprovisioned after it. -/
structure Watched where
  state : State := {}
  acked : String → Option Desired := fun _ => none

def Watched.step (hash : String → Nat) (w : Watched) (a : Env × Event) : Watched :=
  { state := Broker.step hash w.state a
    acked := fun i =>
      if (created w.state a).any (fun c => decide (c.instanceId=i)) ||
          (updated w.state a).any (fun u => decide (u.1.instanceId=i)) ||
          decide (deprovisioned w.state a=some i) then none
      else
        match acknowledgedUpdate w.state a with
        | some inst => if inst.instanceId=i then some (desired inst) else w.acked i
        | none => w.acked i }

/-- At a step no version goes down, and nothing but a newly admitted provision or update
puts a record that asks for other than the acknowledged update did. -/
structure NoLostUpdate (hash : String → Nat) (w : Watched) (a : Env × Event) : Prop where
  monotone : ∀ i v v', Store.stored w.state.tables.rows i=some v →
    Store.stored (w.step hash a).state.tables.rows i=some v' → v.version ≤ v'.version
  kept : created w.state a=none → updated w.state a=none → ∀ x∈puts w.state a, ∀ d,
    w.acked x.instanceId=some d → desired x=d
  stored : ∀ i v d, w.acked i=some d → Store.stored w.state.tables.rows i=some v → desired v=d

/-- A provision or an update is admitted only while no task holds its record, and a
provision only where none is stored. -/
def Exclusive (s : State) (a : Env × Event) : Prop :=
  (∀ c∈created s a, s.Idle c.instanceId ∧ Store.stored s.tables.rows c.instanceId=none) ∧
  ∀ u∈updated s a, s.Idle u.1.instanceId

instance (s : State) (a : Env × Event) : Decidable (Exclusive s a) :=
  inferInstanceAs (Decidable (_ ∧ _))

structure Watched.Inv (w : Watched) : Prop where
  wellFormed : Store.WellFormed w.state.tables.rows
  coherent : (abs w.state).Coherent ServiceInstance.instanceId SameDesired
  acked : ∀ i d, w.acked i=some d → ∀ c, w.state.Source c → c.instanceId=i → desired c=d

theorem source_of_stored {s : State} (hw : Store.WellFormed s.tables.rows) {i : String}
    {v : ServiceInstance} (h : Store.stored s.tables.rows i=some v) :
    s.Source v ∧ v.instanceId=i := by
  have hid : v.instanceId=i := hw.stored_eq h
  exact ⟨Or.inr (by rw [hid]; exact h), hid⟩

section Updates
variable {hash : String → Nat} {w : Watched} {a : Env × Event}

theorem source_of_acknowledged {s : State} {inst : ServiceInstance}
    (h : acknowledgedUpdate s a=some inst) : s.Source inst := by
  simp only [acknowledgedUpdate] at h
  split at h
  · next id outcome =>
    split at h
    · next caller tenantId _ ht _ =>
      have he := Option.some.inj h
      rw [← he]
      exact source_of_task ht List.mem_cons_self
    · cases h
  · cases h

/-- What is acknowledged after a step is what every record of before asked for, and no
request restarts the instance at the step. -/
theorem acked_step (hI : w.Inv) {i : String} {d : Desired}
    (h : (w.step hash a).acked i=some d) :
    ((∀ c∈created w.state a, c.instanceId≠i) ∧ (∀ u∈updated w.state a, u.1.instanceId≠i) ∧
      deprovisioned w.state a≠some i) ∧
      ∀ c, w.state.Source c → c.instanceId=i → desired c=d := by
  simp only [Watched.step] at h
  split at h
  · cases h
  · next hn =>
    refine ⟨?_, ?_⟩
    · simp only [Bool.or_eq_true, Option.any_eq_true, decide_eq_true_eq, not_or, not_exists,
        not_and] at hn
      exact ⟨hn.1.1, hn.1.2, hn.2⟩
    · split at h
      · next inst hack =>
        split at h
        · next hid =>
          intro c hc hci
          have hd := Option.some.inj h
          have hs : SameDesired inst c :=
            hI.coherent inst c (source_of_acknowledged hack) hc (hid.trans hci.symm)
          rw [hs.2, hd]
        · exact hI.acked i d h
      · exact hI.acked i d h

theorem Watched.Inv.fresh (hI : w.Inv) {x : ServiceInstance}
    (hf : WriteBack.Fresh ServiceInstance.instanceId x (abs w.state) (abs (w.step hash a).state))
    (hidle : w.state.Idle x.instanceId)
    (hnot : ∀ d, (w.step hash a).acked x.instanceId≠some d) : (w.step hash a).Inv := by
  refine ⟨step_wellFormed hash hI.wellFormed a,
    hf.coherent sameDesired_equivalence hidle hI.coherent, ?_⟩
  intro i d hack c hc hci
  cases hf.source hc with
  | inl hcx =>
    subst hcx
    subst hci
    exact absurd hack (hnot d)
  | inr hcs => exact (acked_step hI hack).2 c hcs hci

theorem Watched.Inv.step (hI : w.Inv) (he : Exclusive w.state a) : (w.step hash a).Inv := by
  have hwf : Store.WellFormed (w.step hash a).state.tables.rows :=
    step_wellFormed hash hI.wellFormed a
  cases step_kind hash hI.wellFormed a with
  | quiet hc hu hd hp hq =>
    have hs := hq.mono fun c x h => h.sameDesired
    refine ⟨hwf, hs.coherent sameDesired_equivalence (fun c x h => h.1) hI.coherent, ?_⟩
    intro i d hack x hx hxi
    obtain ⟨c, hcs, hsame⟩ := hs.source sameDesired_equivalence.refl hx
    rw [hsame.2]
    exact (acked_step hI hack).2 c hcs (hsame.1.symm.trans hxi)
  | create c hc hu hd hp hf =>
    exact hI.fresh hf (he.1 c hc).1 fun d hack => (acked_step hI hack).1.1 c hc rfl
  | update inst req hc hu hd hst hp hf =>
    exact hI.fresh hf (he.2 (inst, req) hu) fun d hack =>
      (acked_step hI hack).1.2.1 (inst, req) hu rfl
  | delete i hc hu hd hp hr =>
    refine ⟨hwf, hr.coherent hI.coherent, ?_⟩
    intro j d hack x hx hxj
    exact (acked_step hI hack).2 x (hr.source hx) hxj

theorem version_le_of_same {s s' : State} {i : String} {v v' : ServiceInstance}
    (hv : Store.stored s.tables.rows i=some v) (hv' : Store.stored s'.tables.rows i=some v')
    (h : Store.stored s'.tables.rows i=Store.stored s.tables.rows i) : v.version ≤ v'.version := by
  have he : v'=v := by
    rw [hv, hv'] at h
    exact Option.some.inj h
  rw [he]

theorem version_step (hI : w.Inv) (he : Exclusive w.state a) {i : String}
    {v v' : ServiceInstance} (hv : Store.stored w.state.tables.rows i=some v)
    (hv' : Store.stored (w.step hash a).state.tables.rows i=some v') : v.version ≤ v'.version := by
  cases step_kind hash hI.wellFormed a with
  | quiet hc hu hd hp hq =>
    have hs := hq.mono fun c x h => h.sameDesired
    obtain ⟨x, hx, hsame⟩ := hs.stored sameDesired_equivalence (fun c x h => h.1)
      (keyed hI.wellFormed) hI.coherent hv
    have hxv : x=v' := Option.some.inj (hx.symm.trans hv')
    have hver : x.version=v.version := congrArg Desired.version hsame.2
    rw [← hxv, hver]
  | create c hc hu hd hp hf =>
    have hnone := (he.1 c hc).2
    have hne : i≠c.record.instanceId := by
      intro hi
      rw [hi] at hv
      exact absurd (hv.symm.trans hnone) (by simp)
    exact version_le_of_same hv hv' (hf.other i hne)
  | update inst req hc hu hd hst hp hf =>
    by_cases hi : i=inst.instanceId
    · subst hi
      have hvi : v=inst := Option.some.inj (hv.symm.trans hst)
      have hv2 : v'=updatedRecord inst req := Option.some.inj (hv'.symm.trans hf.same)
      have hver : (updatedRecord inst req).version=inst.version+1 := rfl
      rw [hvi, hv2, hver]
      omega
    · exact version_le_of_same hv hv' (hf.other i hi)
  | delete j hc hu hd hp hr =>
    have hne : i≠j := by
      intro hij
      subst hij
      exact absurd (hv'.symm.trans hr.gone) (by simp)
    exact version_le_of_same hv hv' (hr.other i hne)

theorem kept_step (hI : w.Inv) (hc : created w.state a=none) (hu : updated w.state a=none)
    {x : ServiceInstance} (hx : x∈puts w.state a) {d : Desired}
    (hd : w.acked x.instanceId=some d) : desired x=d := by
  cases step_kind (fun _ => 0) hI.wellFormed a with
  | quiet _ _ _ hp _ =>
    obtain ⟨c, hcs, ht⟩ := hp x hx
    rw [ht.sameDesired.2]
    exact hI.acked x.instanceId d hd c hcs ht.instanceId.symm
  | create c hc' => rw [hc] at hc'; cases hc'
  | update inst req _ hu' => rw [hu] at hu'; cases hu'
  | delete i _ _ _ hp => rw [hp] at hx; cases hx

theorem Watched.Inv.start : ({} : Watched).Inv where
  wellFormed := Store.WellFormed.nil
  coherent := by
    intro c d hc
    cases hc with
    | inl hc => cases hc
    | inr hc => cases hc
  acked := by
    intro i d h
    cases h

/-- Along every run whose admitted provisions and updates find no copy of their record
in flight, no update is lost. -/
theorem no_lost_update (hash : String → Nat) (as : List (Env × Event))
    (h : Trace.Along (Watched.step hash) (fun w a => Exclusive w.state a) {} as) :
    Trace.Along (Watched.step hash) (NoLostUpdate hash) {} as := by
  refine Trace.Along.of_invariant Watched.Inv ?_ ?_ Watched.Inv.start h
  · intro w a hI he
    exact hI.step he
  · intro w a hI he
    refine ⟨?_, ?_, ?_⟩
    · intro i v v' hv hv'
      exact version_step hI he hv hv'
    · intro hc hu x hx d hd
      exact kept_step hI hc hu hx hd
    · intro i v d hd hv
      obtain ⟨hs, hid⟩ := source_of_stored hI.wellFormed hv
      exact hI.acked i d hd v hs hid

end Updates

/-! Runs of one load balancer, under an open policy. -/

def sampleEnv : Env :=
  { decode := fun _ => .error (unauthorized "no token"), policy := fun _ => { allow := true } }

def operator : AuthHeader :=
  { authorization := some "Basic YnJva2VyOmJyb2tlcg==", creds := some ⟨"broker", "broker"⟩ }

def provisionEvent : Event :=
  .request operator (.provision "lb-1"
    { serviceId := "sovereign-envoy-lb", planId := "standard-regional" } false)

def updateEvent : Event := .request operator (.update "lb-1" { planId := some "premium" })

def calmRun : List (Env × Event) :=
  [provisionEvent, .resume 0 (.rendered (.ok [])), updateEvent, .resume 2 (.rendered (.ok [])),
    .tick, .resume 4 (.diffed (some [("drifted", .bool false)]))].map fun e => (sampleEnv, e)

theorem no_lost_update_calm :
    (Store.stored (Trace.exec (Watched.step fun _ => 0) {} calmRun).state.tables.rows
      "lb-1").map desired=some { planId := "premium", parameters := {}, version := 2 } ∧
    Trace.Along (Watched.step fun _ => 0) (NoLostUpdate fun _ => 0) {} calmRun :=
  ⟨by decide +kernel, no_lost_update _ _ (by decide +kernel)⟩

/-- The reconciler takes its snapshot before the update, which is acknowledged while the
reconciler waits for its diff. -/
def snapshotRun : List (Env × Event) :=
  [provisionEvent, .resume 0 (.rendered (.ok [])), .tick, updateEvent,
    .resume 3 (.rendered (.ok []))].map fun e => (sampleEnv, e)

def diffEvent : Env × Event := (sampleEnv, .resume 2 (.diffed (some [("drifted", .bool false)])))

/-- The diff then writes the snapshot back: version 1 over the acknowledged version 2. -/
theorem snapshot_undoes_update :
    (Trace.exec (Watched.step fun _ => 0) {} snapshotRun).acked "lb-1" =
      some { planId := "premium", parameters := {}, version := 2 } ∧
    (Store.stored (Trace.exec (Watched.step fun _ => 0) {}
      (snapshotRun++[diffEvent])).state.tables.rows "lb-1").map desired =
      some { planId := "standard-regional", parameters := {}, version := 1 } ∧
    ¬ Trace.Along (Watched.step fun _ => 0) (NoLostUpdate fun _ => 0) {}
      (snapshotRun++[diffEvent]) := by
  refine ⟨by decide +kernel, by decide +kernel, ?_⟩
  intro h
  have hlast := h.last
  have hx : ((puts (Trace.exec (Watched.step fun _ => 0) {} snapshotRun).state diffEvent).map
      fun x => (x.instanceId, desired x)) =
      [("lb-1", { planId := "standard-regional", parameters := {}, version := 1 })] := by
    decide +kernel
  obtain ⟨x, rest, hp, hxe, _⟩ := List.map_eq_cons_iff.mp hx
  have hack : (Trace.exec (Watched.step fun _ => 0) {} snapshotRun).acked x.instanceId =
      some { planId := "premium", parameters := {}, version := 2 } := by
    rw [(Prod.mk.inj hxe).1]
    decide +kernel
  have hd := hlast.kept (by decide +kernel) (by decide +kernel) x
    (by rw [hp]; exact List.mem_cons_self) _ hack
  rw [(Prod.mk.inj hxe).2] at hd
  exact absurd hd (by decide)

/-- A run, with the instances whose deprovision was acknowledged and that no provision
was admitted for since. -/
structure Departed where
  state : State := {}
  gone : String → Bool := fun _ => false

def Departed.step (hash : String → Nat) (w : Departed) (a : Env × Event) : Departed :=
  { state := Broker.step hash w.state a
    gone := fun i =>
      if (created w.state a).any fun c => decide (c.instanceId=i) then false
      else decide (deprovisioned w.state a=some i) || w.gone i }

/-- A gone instance reads as absent, and the step puts it only by admitting a provision. -/
structure NoResurrection (w : Departed) (a : Env × Event) : Prop where
  absent : ∀ i, w.gone i=true → ∀ faults,
    Store.getInstance faults w.state.tables.rows i=.ok none
  puts : ∀ x∈puts w.state a, w.gone x.instanceId=true →
    ∃ c, created w.state a=some c ∧ c.instanceId=x.instanceId

/-- When a deprovision is acknowledged no task holds a copy of the instance. -/
def Undisturbed (s : State) (a : Env × Event) : Prop := ∀ i∈deprovisioned s a, s.Idle i

instance (s : State) (a : Env × Event) : Decidable (Undisturbed s a) :=
  inferInstanceAs (Decidable (∀ i∈deprovisioned s a, s.Idle i))

structure Departed.Inv (w : Departed) : Prop where
  wellFormed : Store.WellFormed w.state.tables.rows
  absent : ∀ i, w.gone i=true → (abs w.state).Absent ServiceInstance.instanceId i

section Deletion
variable {hash : String → Nat} {w : Departed} {a : Env × Event}

theorem gone_step {i : String} (h : (w.step hash a).gone i=true) :
    (∀ c∈created w.state a, c.instanceId≠i) ∧
      (deprovisioned w.state a=some i ∨ w.gone i=true) := by
  simp only [Departed.step] at h
  split at h
  · cases h
  · next hn =>
    simp only [Option.any_eq_true, decide_eq_true_eq, not_exists, not_and] at hn
    exact ⟨hn, by simpa using h⟩

theorem Departed.Inv.step (hI : w.Inv) (hu : Undisturbed w.state a) : (w.step hash a).Inv := by
  refine ⟨step_wellFormed hash hI.wellFormed a, ?_⟩
  intro i hi
  obtain ⟨hnew, hgone⟩ := gone_step hi
  cases step_kind hash hI.wellFormed a with
  | quiet hc hu' hd hp hq =>
    have hg : w.gone i=true := hgone.resolve_left (by rw [hd]; simp)
    exact hq.absent (fun c x h => h.instanceId) (hI.absent i hg)
  | create c hc hu' hd hp hf =>
    have hg : w.gone i=true := hgone.resolve_left (by rw [hd]; simp)
    exact hf.absent (hnew c hc) (hI.absent i hg)
  | update inst req hc hu' hd hst hp hf =>
    have hg : w.gone i=true := hgone.resolve_left (by rw [hd]; simp)
    have hne : inst.instanceId≠i := by
      intro he
      rw [he] at hst
      exact absurd (hst.symm.trans (hI.absent i hg).1) (by simp)
    exact hf.absent hne (hI.absent i hg)
  | delete j hc hu' hd hp hr =>
    cases hgone with
    | inl he =>
      have hji : j=i := Option.some.inj (hd.symm.trans he)
      subst hji
      exact hr.absent_self (hu j hd)
    | inr hg => exact hr.absent (hI.absent i hg)

theorem not_source_of_gone (hI : w.Inv) {c : ServiceInstance} (hc : w.state.Source c) :
    w.gone c.instanceId=false := by
  cases hg : w.gone c.instanceId with
  | false => rfl
  | true =>
    have ha := hI.absent c.instanceId hg
    cases hc with
    | inl hm => exact absurd rfl (ha.2 c hm)
    | inr ht => exact absurd (ht.symm.trans ha.1) (by simp)

theorem resurrected_by_provision (hI : w.Inv) {x : ServiceInstance} (hx : x∈puts w.state a)
    (hg : w.gone x.instanceId=true) :
    ∃ c, created w.state a=some c ∧ c.instanceId=x.instanceId := by
  cases step_kind (fun _ => 0) hI.wellFormed a with
  | quiet hc hu hd hp hq =>
    obtain ⟨c, hcs, ht⟩ := hp x hx
    have hf := not_source_of_gone hI hcs
    rw [ht.instanceId, hf] at hg
    cases hg
  | create c hc hu hd hp hf =>
    rw [hp] at hx
    have hxc : x=c.record := List.mem_singleton.mp hx
    exact ⟨c, hc, by rw [hxc]; rfl⟩
  | update inst req hc hu hd hst hp hf =>
    rw [hp] at hx
    have hxi : x.instanceId=inst.instanceId := by rw [List.mem_singleton.mp hx]; rfl
    have hf' := not_source_of_gone hI (Or.inr hst)
    rw [hxi, hf'] at hg
    cases hg
  | delete i hc hu hd hp hr => rw [hp] at hx; cases hx

theorem Departed.Inv.start : ({} : Departed).Inv where
  wellFormed := Store.WellFormed.nil
  absent := by
    intro i h
    cases h

/-- Along every run whose deletions find no copy of their record in flight, an instance
that is gone stays gone until it is provisioned again. -/
theorem no_resurrection (hash : String → Nat) (as : List (Env × Event))
    (h : Trace.Along (Departed.step hash) (fun w a => Undisturbed w.state a) {} as) :
    Trace.Along (Departed.step hash) NoResurrection {} as := by
  refine Trace.Along.of_invariant Departed.Inv ?_ ?_ Departed.Inv.start h
  · intro w a hI hu
    exact hI.step hu
  · intro w a hI _
    refine ⟨?_, ?_⟩
    · intro i hi faults
      exact hI.wellFormed.getInstance_none (hI.absent i hi).1 faults
    · intro x hx hg
      exact resurrected_by_provision hI hx hg

end Deletion

def deprovisionEvent : Event := .request operator (.deprovision "lb-1")

def tornDownOk : Outcome := .tornDown (.ok { ok := true, removed := [] })

def quietExitRun : List (Env × Event) :=
  [provisionEvent, .resume 0 (.rendered (.ok [])), updateEvent, .resume 2 (.rendered (.ok [])),
    deprovisionEvent, .resume 4 tornDownOk, .tick].map fun e => (sampleEnv, e)

theorem no_resurrection_quietExit :
    (Trace.exec (Departed.step fun _ => 0) {} quietExitRun).gone "lb-1"=true ∧
    Trace.Along (Departed.step fun _ => 0) NoResurrection {} quietExitRun :=
  ⟨by decide +kernel, no_resurrection _ _ (by decide +kernel)⟩

def overlappingExitRun : List (Env × Event) :=
  [provisionEvent, .resume 0 (.rendered (.ok [])), .tick, deprovisionEvent,
    .resume 3 tornDownOk].map fun e => (sampleEnv, e)

/-- The drift refresh puts the record back. -/
theorem refresh_resurrects :
    (Trace.exec (Departed.step fun _ => 0) {} overlappingExitRun).gone "lb-1"=true ∧
    (Store.stored (Trace.exec (Departed.step fun _ => 0) {}
      (overlappingExitRun++[diffEvent])).state.tables.rows "lb-1").map (·.version)=some 1 ∧
    ¬ Trace.Along (Departed.step fun _ => 0) NoResurrection {}
      (overlappingExitRun++[diffEvent]) := by
  refine ⟨by decide +kernel, by decide +kernel, ?_⟩
  intro h
  have hlast := h.last
  have hx : ((puts (Trace.exec (Departed.step fun _ => 0) {} overlappingExitRun).state
      diffEvent).map (·.instanceId))=["lb-1"] := by
    decide +kernel
  obtain ⟨x, rest, hp, hxe, _⟩ := List.map_eq_cons_iff.mp hx
  have hg : (Trace.exec (Departed.step fun _ => 0) {} overlappingExitRun).gone
      x.instanceId=true := by
    rw [hxe]
    decide +kernel
  obtain ⟨c, hc, _⟩ := hlast.puts x (by rw [hp]; exact List.mem_cons_self) hg
  have hnone : created (Trace.exec (Departed.step fun _ => 0) {} overlappingExitRun).state
      diffEvent=none := by
    decide +kernel
  rw [hnone] at hc
  cases hc

end Sovereign.Broker
