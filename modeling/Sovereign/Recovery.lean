import Sovereign.Passes
import Sovereign.Interleaving

/-! Operations in progress and crashes. A crash keeps the tables as the last write left
them and loses the handlers, so an operation in progress goes on only if a later
reconcile takes its record up. -/
namespace Sovereign.Broker
open Sovereign Policy Renderers

/-- A reconcile would take the record up, if its operation is in progress. -/
def Recoverable (x : ServiceInstance) : Prop :=
  x.operationState=some .inProgress → needsReconcile x=true

instance (x : ServiceInstance) : Decidable (Recoverable x) :=
  inferInstanceAs (Decidable (_ → _))

def State.NoneStuck (s : State) : Prop :=
  s.tasks=[] → ∀ i x, Store.stored s.tables.rows i=some x → Recoverable x

structure Move where
  action : Env × Event
  crash : Option Nat := none

def Move.writes (s : State) (m : Move) : List Write :=
  let ws := ((segment m.action.1 s m.action.2).map fun r => r.2.writes).getD []
  match m.crash with
  | none => ws
  | some k => ws.take k

/-- What a crash after `k` of the writes leaves: the tables, and no handler. -/
def Move.cut (hash : String → Nat) (s : State) (m : Move) (k : Nat) : State :=
  { tables := ((m.writes s).take k).foldl (Write.apply hash) s.tables, nextTask := s.nextTask }

def Move.step (hash : String → Nat) (s : State) (m : Move) : State :=
  match m.crash with
  | none => Broker.step hash s m.action
  | some k => m.cut hash s k

/-- No operation is stuck after the move, nor after a crash between any two of its writes. -/
structure Move.Settled (hash : String → Nat) (s : State) (m : Move) : Prop where
  after : (m.step hash s).NoneStuck
  crashed : ∀ k, (m.cut hash s k).NoneStuck

/-- The task refreshes the drift of a record whose operation is in progress, the diff
finds no difference, and neither the status nor the versions call for a reconcile. -/
def Task.Unmarks (r : Artifact) : Task → Prop
  | .diff inst _ =>
    refreshedDrift.truthyMember "unknown" r=false ∧ refreshedDrift.truthyMember "drifted" r=false ∧
      inst.operationState=some .inProgress ∧ inst.status≠.provisioning ∧ inst.status≠.failed ∧
      inst.appliedVersion=some inst.version
  | _ => False

instance (r : Artifact) : ∀ task : Task, Decidable (task.Unmarks r)
  | .diff _ _ => inferInstanceAs (Decidable (_ ∧ _))
  | .provision _ _ _ _ => isFalse fun h => h
  | .update _ _ _ => isFalse fun h => h
  | .teardown _ _ _ _ => isFalse fun h => h
  | .reconcile _ _ => isFalse fun h => h

def Move.KeepsMark (s : State) (m : Move) : Prop :=
  match m.action.2 with
  | .resume id (.diffed (some r)) => m.action.1.faults.put=false → m.crash≠some 0 →
      ∀ task∈s.tasks.lookup id, ¬ task.Unmarks r
  | _ => True

instance Move.decidableKeepsMark (s : State) : ∀ m : Move, Decidable (m.KeepsMark s)
  | ⟨(env, .resume id (.diffed (some r))), crash⟩ =>
    inferInstanceAs (Decidable (env.faults.put=false → crash≠some 0 →
      ∀ task∈s.tasks.lookup id, ¬ task.Unmarks r))
  | ⟨(_, .resume _ (.diffed none)), _⟩ => isTrue trivial
  | ⟨(_, .resume _ .diffRaised), _⟩ => isTrue trivial
  | ⟨(_, .resume _ (.rendered _)), _⟩ => isTrue trivial
  | ⟨(_, .resume _ (.tornDown _)), _⟩ => isTrue trivial
  | ⟨(_, .request _ _), _⟩ => isTrue trivial
  | ⟨(_, .tick), _⟩ => isTrue trivial

theorem recoverable_of_reconciling {x : ServiceInstance} (h : x.driftStatus=.reconciling) :
    Recoverable x := by
  intro _
  simp [needsReconcile, h]

theorem recoverable_of_ended {x : ServiceInstance} (h : x.operationState≠some .inProgress) :
    Recoverable x := fun he => absurd he h

theorem recoverable_started (c : ServiceInstance) : Recoverable (reconcileStarted c) :=
  recoverable_of_reconciling rfl

theorem recoverable_failed (c : ServiceInstance) (fault : RenderFault) :
    Recoverable (markOperationFailed { c with status := .failed } fault) :=
  recoverable_of_ended (by simp [markOperationFailed])

theorem recoverable_succeeded {c x : ServiceInstance} {artifact : Artifact}
    (h : markOperationSucceeded { c with status := .succeeded } artifact=some x) :
    Recoverable x := by
  obtain ⟨version, _, hx⟩ := Option.map_eq_some_iff.mp h
  subst hx
  exact recoverable_of_ended (by simp)

/-- A refreshed record is stuck in exactly one case. -/
theorem recoverable_refreshed {inst x : ServiceInstance} {r : Artifact} (pass : Pass)
    (h : refreshedDrift inst (some r)=some x) :
    Recoverable x ↔ ¬ (Task.diff inst pass).Unmarks r := by
  simp only [refreshedDrift] at h
  split at h
  · cases h
  · next hu =>
    cases h
    simp only [Recoverable, needsReconcile, Task.Unmarks, hu]
    cases refreshedDrift.truthyMember "drifted" r with
    | true => simp
    | false =>
      simp only [Bool.false_eq_true, if_false, Bool.or_eq_true, decide_eq_true_eq, reduceCtorEq,
        or_self, or_false, true_and]
      tauto

section Puts
variable {env : Env} {t : Tables}

theorem writesOnly_startWrites (refreshDrift : Bool) (list : List ServiceInstance) :
    WritesOnly Recoverable (startWrites env refreshDrift list) where
  puts := by
    intro x hx
    obtain ⟨c, _, he⟩ := startWrites_puts hx
    cases he
    exact recoverable_started c
  deletes := by
    intro i hi
    obtain ⟨_, _, he⟩ := startWrites_puts hi
    cases he

theorem Finalizes.writesOnly {inst : ServiceInstance} {recordUsage : Bool} {auditAction : String}
    {ws : List Write} (h : Finalizes env inst recordUsage auditAction ws) :
    WritesOnly Recoverable ws := by
  cases h with
  | unmetered artifact x hx _ => exact WritesOnly.put (recoverable_succeeded hx)
  | failed fault r _ _ =>
    exact (writesOnly_putOr (recoverable_failed inst fault)).append (writesOnly_audit r)
  | raised => exact WritesOnly.nil
  | succeeded artifact x meters r hx hm _ _ =>
    refine (WritesOnly.put (recoverable_succeeded hx)).append
      (WritesOnly.append ⟨?_, ?_⟩ (writesOnly_audit r))
    · intro y hy
      obtain ⟨_, he⟩ := hm _ hy
      cases he
    · intro i hi
      obtain ⟨_, he⟩ := hm _ hi
      cases he

theorem updateRendered_recoverable (inst : ServiceInstance) (caller : Caller) (tenantId : String)
    (result : Except RenderFault Artifact) :
    WritesOnly Recoverable (updateRendered env inst caller tenantId result).writes := by
  cases result with
  | error fault =>
    simp only [updateRendered]
    split
    · exact WritesOnly.nil
    · exact WritesOnly.put (recoverable_failed inst fault)
  | ok artifact =>
    simp only [updateRendered]
    split
    · exact WritesOnly.nil
    · next x hx =>
      split
      · exact WritesOnly.nil
      · exact (WritesOnly.put (recoverable_succeeded hx)).append (writesOnly_audit _)

theorem Segment.Stores.put_eq {seg : Segment} {x y : ServiceInstance} (h : seg.Stores x)
    (hy : Write.put y∈seg.writes) : y=x := by
  obtain ⟨ws, hws, he⟩ := h.writes
  rw [he] at hy
  cases List.mem_append.mp hy with
  | inl hy =>
    obtain ⟨_, hf, _⟩ := hws.puts y hy
    exact hf.elim
  | inr hy =>
    cases List.mem_singleton.mp hy
    rfl

theorem Segment.Deletes.no_put {seg : Segment} {i : String} {y : ServiceInstance}
    (h : seg.Deletes i) : Write.put y∉seg.writes := by
  obtain ⟨ws, record, hws, he⟩ := h.writes
  intro hy
  rw [he] at hy
  cases List.mem_append.mp hy with
  | inl hy =>
    obtain ⟨_, hf, _⟩ := hws.puts y hy
    exact hf.elim
  | inr hy => simp at hy

theorem Served.recoverable {seg : Segment} (h : Served env t seg) {x : ServiceInstance}
    (hx : Write.put x∈seg.writes) : Recoverable x := by
  cases h with
  | stores y hy hs =>
    rw [hs.put_eq hx]
    exact recoverable_of_reconciling hy
  | deletes i hs => exact absurd hx hs.no_put
  | plain hs => exact (hs _).writes.puts x hx
  | pass list _ _ =>
    rw [startPass_writes] at hx
    exact (writesOnly_startWrites _ _).puts x hx

theorem mem_putOr {w : Write} {x : ServiceInstance} (h : w∈putOr env x) :
    env.faults.put=false ∧ w=.put x := by
  rw [putOr] at h
  split at h
  · cases h
  · next hp => exact ⟨by simpa using hp, List.mem_singleton.mp h⟩

theorem resume_recoverable {task : Task} {outcome : Outcome} {seg : Segment}
    (h : task.resume env outcome=some seg) {x : ServiceInstance}
    (hx : Write.put x∈seg.writes) :
    Recoverable x ∨ env.faults.put=false ∧ ∃ inst pass result,
      task=.diff inst pass ∧ outcome=.diffed result ∧ refreshedDrift inst result=some x := by
  cases resumed_of_resume h with
  | provision inst caller tenantId background result =>
    exact Or.inl ((finalizeProvision_finalizes env inst caller tenantId true _
      result).writesOnly.puts x hx)
  | update inst caller tenantId result =>
    exact Or.inl ((updateRendered_recoverable inst caller tenantId result).puts x hx)
  | teardown instanceId inst caller tenantId result =>
    obtain he | he := deprovisionTornDown_effect env instanceId inst caller tenantId result
    · exact absurd hx he.2.no_put
    · exact Or.inl ((he.2 _).writes.puts x hx)
  | diff inst pass result =>
    cases hr : refreshedDrift inst result with
    | none =>
      rw [diffed_writes_unknown env pass hr] at hx
      refine Or.inl ?_
      split at hx
      · exact (writesOnly_putOr (recoverable_started inst)).puts x hx
      · exact (writesOnly_startWrites _ _).puts x hx
    | some y =>
      rw [diffed_writes_refreshed env pass hr] at hx
      cases List.mem_append.mp hx with
      | inl hx =>
        obtain ⟨hp, he⟩ := mem_putOr hx
        cases he
        exact Or.inr ⟨hp, inst, pass, result, rfl, rfl, hr⟩
      | inr hx =>
        refine Or.inl ?_
        split at hx
        · exact (writesOnly_putOr (recoverable_started y)).puts x hx
        · exact (writesOnly_startWrites _ _).puts x hx
  | abandoned inst pass => cases hx
  | reconcile inst pass result =>
    rw [reconcileRendered, reconcileNext_writes] at hx
    refine Or.inl (WritesOnly.puts (WritesOnly.append ?_ (writesOnly_startWrites _ _)) x hx)
    exact (finalizeProvision_finalizes env inst systemReconciler _ false _ result).writesOnly

end Puts

/-- Every stored record is recoverable, whether or not a handler is running. -/
def State.Marked (s : State) : Prop :=
  ∀ i x, Store.stored s.tables.rows i=some x → Recoverable x

section Moves
variable {hash : String → Nat} {s : State} {m : Move}

theorem recoverable_writes {t : Tables} {ws : List Write}
    (ht : ∀ i x, Store.stored t.rows i=some x → Recoverable x)
    (hw : ∀ x, Write.put x∈ws → Recoverable x) :
    ∀ i x, Store.stored (ws.foldl (Write.apply hash) t).rows i=some x → Recoverable x := by
  induction ws generalizing t with
  | nil => exact ht
  | cons w ws ih =>
    refine ih ?_ fun x hx => hw x (List.mem_cons_of_mem w hx)
    intro i x hx
    cases w with
    | put y =>
      simp only [Write.apply, Store.stored_putInstance] at hx
      split at hx
      · cases hx
        exact hw x List.mem_cons_self
      · exact ht i x hx
    | delete j =>
      simp only [Write.apply, Store.stored_deleteInstance] at hx
      split at hx
      · cases hx
      · exact ht i x hx
    | putBinding b => exact ht i x hx
    | deleteBinding j => exact ht i x hx
    | meter r => exact ht i x hx
    | audit r => exact ht i x hx

theorem Move.writes_sublist {resumed : Option Nat} {seg : Segment}
    (h : segment m.action.1 s m.action.2=some (resumed, seg)) : ∀ w∈m.writes s, w∈seg.writes := by
  intro w hw
  simp only [Move.writes, h, Option.map_some, Option.getD_some] at hw
  split at hw
  · exact hw
  · exact List.mem_of_mem_take hw

theorem Move.crash_ne_zero {w : Write} (h : w∈m.writes s) : m.crash≠some 0 := by
  intro hc
  simp [Move.writes, hc] at h

theorem Move.step_tables :
    (m.step hash s).tables=(m.writes s).foldl (Write.apply hash) s.tables := by
  simp only [Move.step, Move.cut, Move.writes]
  cases m.crash with
  | some k => simp [List.take_take]
  | none =>
    simp only [Broker.step]
    split
    · next h => simp [h]
    · next resumed seg h => simp [h, State.run]

theorem Move.KeepsMark.puts (hk : m.KeepsMark s) {x : ServiceInstance}
    (hx : Write.put x∈m.writes s) : Recoverable x := by
  cases hseg : segment m.action.1 s m.action.2 with
  | none =>
    simp only [Move.writes, hseg] at hx
    split at hx <;> simp at hx
  | some found =>
    obtain ⟨resumed, seg⟩ := found
    have hput : Write.put x∈seg.writes := Move.writes_sublist hseg _ hx
    have hcrash := Move.crash_ne_zero hx
    obtain ⟨⟨env, event⟩, crash⟩ := m
    cases event with
    | request auth req =>
      simp only [segment] at hseg
      split at hseg
      · cases hseg
        cases hput
      · cases hseg
        exact (serve_served env _ req s.tables).recoverable hput
    | tick =>
      cases hseg
      rw [startPass_writes] at hput
      exact (writesOnly_startWrites _ _).puts x hput
    | resume id outcome =>
      obtain ⟨seg', hb, he⟩ := Option.map_eq_some_iff.mp hseg
      obtain ⟨task, hl, hres⟩ := Option.bind_eq_some_iff.mp hb
      cases he
      obtain hr | ⟨hp, inst, pass, result, ht, ho, hr⟩ := resume_recoverable hres hput
      · exact hr
      · subst ht ho
        cases result with
        | none => cases hr
        | some r => exact (recoverable_refreshed pass hr).mpr (hk hp hcrash _ hl)

theorem Move.KeepsMark.marked (hk : m.KeepsMark s) (hs : s.Marked) :
    (m.step hash s).Marked := by
  intro i x hx
  rw [Move.step_tables] at hx
  exact recoverable_writes hs (fun y hy => hk.puts hy) i x hx

theorem Move.KeepsMark.settled (hk : m.KeepsMark s) (hs : s.Marked) : m.Settled hash s where
  after := fun _ => hk.marked hs
  crashed := fun _ _ => recoverable_writes hs fun _ hy => hk.puts (List.mem_of_mem_take hy)

theorem Move.Settled.keepsMark (h : m.Settled hash s) : m.KeepsMark s := by
  obtain ⟨⟨env, event⟩, crash⟩ := m
  simp only [Move.KeepsMark]
  split
  · next id r =>
    intro hp hcrash task hl hu
    cases task with
    | diff inst pass =>
      obtain ⟨x, hr⟩ : ∃ x, refreshedDrift inst (some r)=some x := by
        simp [refreshedDrift, hu.1]
      obtain ⟨rest, hw⟩ : ∃ rest, Move.writes s ⟨(env, .resume id (.diffed (some r))), crash⟩ =
          .put x::rest := by
        have hseg : (diffed env inst pass (some r)).writes =
            .put x::(if needsReconcile x then putOr env (reconcileStarted x)
              else startWrites env pass.refreshDrift pass.rest) := by
          rw [diffed_writes_refreshed env pass hr]
          simp [putOr, show env.faults.put=false from hp]
        have hl' : s.tasks.lookup id=some (.diff inst pass) := hl
        simp only [Move.writes, segment, hl', Option.bind_some, Task.resume, Option.map_some,
          Option.getD_some, hseg]
        cases crash with
        | none => exact ⟨_, rfl⟩
        | some k =>
          cases k with
          | zero => exact absurd rfl hcrash
          | succ k => exact ⟨_, rfl⟩
      refine (recoverable_refreshed pass hr).mp ?_ hu
      have hst := h.crashed 1 rfl x.instanceId x
      simp only [Move.cut, hw] at hst
      exact hst (Store.stored_putInstance_same hash x s.tables.rows)
    | provision inst caller tenantId background => exact hu
    | update inst caller tenantId => exact hu
    | teardown instanceId inst caller tenantId => exact hu
    | reconcile inst pass => exact hu
  · trivial

/-- Along every run with crashes, no operation is stuck in progress when no handler runs, if
and only if no drift refresh stores, as in sync, a record whose operation is in progress
and which nothing else marks for a reconcile. -/
theorem no_stuck_operation_iff (hash : String → Nat) (t : Tables)
    (ht : ({ tables := t } : State).NoneStuck) (ms : List Move) :
    Trace.Along (Move.step hash) (Move.Settled hash) { tables := t } ms ↔
      Trace.Along (Move.step hash) (fun s m => m.KeepsMark s) { tables := t } ms := by
  refine Trace.Along.iff_of_invariant State.Marked ?_ ?_ (ht rfl) ms
  · intro s m hs hk
    exact hk.marked hs
  · intro s m hs
    exact ⟨fun h => h.keepsMark, fun hk => hk.settled hs⟩

end Moves

/-- The process crashes once in a provision and once in a reconcile; each time the next pass
takes the record up again. -/
def recoveredRun : List Move :=
  [{ action := (sampleEnv, provisionEvent), crash := some 2 },
    { action := (sampleEnv, .tick) },
    { action := (sampleEnv, .resume 0 (.rendered (.ok []))) },
    { action := (sampleEnv, .tick) },
    { action := (sampleEnv, .resume 2 (.diffed (some [("drifted", .bool true)]))), crash := some 2 },
    { action := (sampleEnv, .tick) },
    { action := (sampleEnv, .resume 3 (.diffed (some [("drifted", .bool true)]))) },
    { action := (sampleEnv, .resume 3 (.rendered (.ok []))) }]

theorem no_stuck_operation_recovered :
    ((Store.stored (Trace.exec (Move.step fun _ => 0) {} recoveredRun).tables.rows "lb-1").map
      fun x => (x.operationState, x.reconcileAttempts))=some (some .succeeded, 3) ∧
    Trace.Along (Move.step fun _ => 0) (Move.Settled fun _ => 0) {} recoveredRun := by
  refine ⟨by decide +kernel, (no_stuck_operation_iff _ {} ?_ _).mpr (by decide +kernel)⟩
  intro _ i x hx
  cases hx

def crashedReconcileRun : List Move :=
  [{ action := (sampleEnv, provisionEvent) },
    { action := (sampleEnv, .resume 0 (.rendered (.ok []))) },
    { action := (sampleEnv, .tick) },
    { action := (sampleEnv, .resume 2 (.diffed (some [("drifted", .bool true)]))), crash := some 2 },
    { action := (sampleEnv, .tick) }]

def confirmingMove : Move :=
  { action := (sampleEnv, .resume 3 (.diffed (some [("drifted", .bool false)]))) }

/-- The operation stays in progress, and no reconcile takes the record up. -/
theorem refresh_leaves_stuck :
    ((Store.stored (Trace.exec (Move.step fun _ => 0) {}
      (crashedReconcileRun++[confirmingMove])).tables.rows "lb-1").map
      fun x => (x.operationState, needsReconcile x))=some (some .inProgress, false) ∧
    ¬ Trace.Along (Move.step fun _ => 0) (Move.Settled fun _ => 0) {}
      (crashedReconcileRun++[confirmingMove]) := by
  refine ⟨by decide +kernel, ?_⟩
  intro h
  have hno : ¬ ∀ x∈Store.stored (confirmingMove.step (fun _ => 0) (Trace.exec
      (Move.step fun _ => 0) {} crashedReconcileRun)).tables.rows "lb-1", Recoverable x := by
    decide +kernel
  have hidle : (confirmingMove.step (fun _ => 0) (Trace.exec (Move.step fun _ => 0) {}
      crashedReconcileRun)).tasks=[] := by
    decide +kernel
  exact hno fun x hx => h.last.after hidle "lb-1" x hx

end Sovereign.Broker
