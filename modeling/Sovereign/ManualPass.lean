import Sovereign.Sweep

/-! The two ways to start a reconcile pass: `POST /v2/reconcile` and the timer. Both hand
the listed records to `_reconcile_instance`; the timer also asks it to refresh drift from a
diff first. A pass that is alone and whose calls are answered by functions of the record
ends with the writes of `_reconcile_instance` on each record, in turn. -/
namespace Sovereign.Broker
open Sovereign Policy Renderers

/-- How the control plane answers, as functions of the record it is sent. -/
structure Answers where
  diff : ServiceInstance → Option Artifact
  render : ServiceInstance → Except RenderFault Artifact

/-- A control plane whose diffs may also be no JSON objects, so that reading them raises. -/
structure Replies extends Answers where
  raises : ServiceInstance → Bool

def Answers.readable (p : Answers) : Replies := { p with raises := fun _ => false }

def Replies.stops (p : Replies) (refreshDrift : Bool) (inst : ServiceInstance) : Bool :=
  refreshDrift && decide (inst.status=.succeeded) && p.raises inst

def Replies.through (p : Replies) (refreshDrift : Bool) (list : List ServiceInstance) :
    List ServiceInstance := list.takeWhile fun inst => !p.stops refreshDrift inst

abbrev Answered := State × Option (Except HttpError Reply)

section Run
variable (hash : String → Nat) (env : Env) (p : Replies)

def answer (s : State) : Option (Env × Event) :=
  match s.tasks with
  | [(id, .diff inst _)] =>
    some (env, .resume id (if p.raises inst then .diffRaised else .diffed (p.diff inst)))
  | [(id, .reconcile inst _)] => some (env, .resume id (.rendered (p.render inst)))
  | _ => none

def settle : Nat → Answered → Answered
  | 0, s => s
  | n+1, s =>
    match answer env p s.1 with
    | none => s
    | some a => settle n (step hash s.1 a, reply s.1 a)

def runPass (first : Event) (t : Tables) : Answered :=
  settle hash env p (2*t.rows.length)
    (step hash { tables := t } (env, first), reply { tables := t } (env, first))

def manualPass (auth : AuthHeader) (limit : Int) (t : Tables) : Answered :=
  runPass hash env p (.request auth (.reconcile none limit)) t

def periodicPass (t : Tables) : Answered := runPass hash env p .tick t

end Run

section Calls
variable (env : Env) (p : Answers)

def refreshWrites (refreshDrift : Bool) (inst : ServiceInstance) : List Write :=
  if refreshDrift && decide (inst.status=.succeeded) then
    ((refreshedDrift inst (p.diff inst)).map (putOr env)).getD []
  else []

def refreshedRecord (refreshDrift : Bool) (inst : ServiceInstance) : ServiceInstance :=
  if refreshDrift && decide (inst.status=.succeeded) then
    (refreshedDrift inst (p.diff inst)).getD inst
  else inst

def reconcileDone (inst : ServiceInstance) : Finalized :=
  finalizeProvision env inst systemReconciler (orElseStr inst.organizationGuid "default") false
    "instance.reconciled" (p.render inst)

def renderedResult (inst : ServiceInstance) (done : Finalized) : ReconcileResult :=
  match done.result with
  | .error _ => .failed inst.instanceId done.inst.status.value done.inst.operationId
      done.inst.operationReason done.inst.failedStepKind
  | .ok artifact => .reconciled inst.instanceId done.inst.status.value done.inst.operationId
      done.inst.appliedVersion artifact

def reconcileInstance (refreshDrift : Bool) (inst : ServiceInstance) :
    List Write × ReconcileResult :=
  let writes := refreshWrites env p refreshDrift inst
  let inst := refreshedRecord p refreshDrift inst
  if needsReconcile inst then
    let inst := reconcileStarted inst
    let done := reconcileDone env p inst
    (writes ++ putOr env inst ++ done.writes, renderedResult inst done)
  else (writes, skippedResult inst)

def passWrites (refreshDrift : Bool) (list : List ServiceInstance) : List Write :=
  list.flatMap fun inst => (reconcileInstance env p refreshDrift inst).1

def passResults (refreshDrift : Bool) (list : List ServiceInstance) : List ReconcileResult :=
  list.map fun inst => (reconcileInstance env p refreshDrift inst).2

end Calls

def ReconcileResult.action : ReconcileResult → String
  | .skipped _ _ _ => "skipped"
  | .failed _ _ _ _ _ => "failed"
  | .reconciled _ _ _ _ _ => "reconciled"

/-! A pass that is alone runs to its end. -/

section Settles
variable {hash : String → Nat} {env : Env} {p : Replies}

def State.Sole (s : State) : Option Nat → Prop
  | none => s.tasks=[]
  | some id => ∃ task, s.tasks=[(id, task)]

theorem State.Sole.tasks_run {s : State} {resumed : Option Nat} (h : s.Sole resumed)
    (seg : Segment) :
    (s.run hash resumed seg).tasks =
      seg.task.toList.map fun t => (resumed.getD s.nextTask, t) := by
  cases resumed with
  | none => exact tasks_tick h
  | some id =>
    obtain ⟨task, ht⟩ := h
    exact tasks_resume hash seg ht

structure Ended (hash : String → Nat) (pass : Pass) (stopped : Bool) (ws : List Write)
    (results : List ReconcileResult) (t : Tables) (s : Answered) : Prop where
  tasks : s.1.tasks=[]
  tables : s.1.tables=ws.foldl (Write.apply hash) t
  reply : s.2=if pass.manual then
      some (if stopped then .error internalError else .ok (.reconciled pass.checked results))
    else none

theorem reply_resume {s : State} {id : Nat} {outcome : Outcome} {task : Task} {seg : Segment}
    (ht : s.tasks=[(id, task)]) (hres : task.resume env outcome=some seg) :
    reply s (env, .resume id outcome)=seg.reply := by
  simp [reply, segment, ht, hres]

def Loops (hash : String → Nat) (env : Env) (p : Replies) (list : List ServiceInstance) : Prop :=
  ∀ (pass : Pass) (ws : List Write) (results : List ReconcileResult) (s : State)
    (resumed : Option Nat) (n : Nat), s.Sole resumed → 2*list.length≤n →
    Ended hash pass (list.any (p.stops pass.refreshDrift))
      (ws ++ passWrites env p.toAnswers pass.refreshDrift (p.through pass.refreshDrift list))
      (results ++ passResults env p.toAnswers pass.refreshDrift (p.through pass.refreshDrift list))
      s.tables
      (settle hash env p n (s.run hash resumed (reconcileNext env pass ws list results),
        (reconcileNext env pass ws list results).reply))

theorem tables_run (s : State) (resumed : Option Nat) (seg : Segment) :
    (s.run hash resumed seg).tables=seg.writes.foldl (Write.apply hash) s.tables := rfl

theorem Ended.after {pass : Pass} {stopped : Bool} {ws ws' : List Write}
    {results : List ReconcileResult} {t t' : Tables} {s : Answered}
    (h : Ended hash pass stopped ws' results t' s)
    (ht : t'=ws.foldl (Write.apply hash) t) : Ended hash pass stopped (ws++ws') results t s := by
  refine ⟨h.tasks, ?_, h.reply⟩
  rw [h.tables, ht, List.foldl_append]

theorem settle_idle {s : Answered} (h : s.1.tasks=[]) (n : Nat) : settle hash env p n s=s := by
  cases n with
  | zero => rfl
  | succ n => simp only [settle, answer, h]

theorem through_cons {refreshDrift : Bool} {inst : ServiceInstance}
    (h : p.stops refreshDrift inst=false) (rest : List ServiceInstance) :
    p.through refreshDrift (inst::rest)=inst::p.through refreshDrift rest := by
  simp [Replies.through, h]

/-- A segment that leaves one task waiting goes on with what the task does when answered. -/
theorem settle_waits {s : State} {resumed : Option Nat} (h : s.Sole resumed) (ws : List Write)
    {task : Task} {outcome : Outcome} {seg : Segment}
    (hans : ∀ (s' : State) (id : Nat), s'.tasks=[(id, task)] →
      answer env p s'=some (env, .resume id outcome))
    (hres : task.resume env outcome=some seg) (n : Nat) :
    ∃ (s' : State) (id : Nat), s'.Sole (some id) ∧
      s'.tables=ws.foldl (Write.apply hash) s.tables ∧
      settle hash env p (n+1) (s.run hash resumed { writes := ws, task := some task }, none) =
        settle hash env p n (s'.run hash (some id) seg, seg.reply) := by
  generalize hs : s.run hash resumed { writes := ws, task := some task }=s'
  have ht : s'.tasks=[(resumed.getD s.nextTask, task)] := by
    rw [← hs, h.tasks_run]
    rfl
  refine ⟨s', resumed.getD s.nextTask, ⟨_, ht⟩, by rw [← hs, tables_run], ?_⟩
  simp only [settle, hans s' _ ht]
  rw [step_resume hash ht hres, reply_resume ht hres]

/-- A pass that waits for a render goes on with the rest of its list. -/
theorem settle_started (pass : Pass) (ih : Loops hash env p pass.rest) (inst : ServiceInstance)
    (ws : List Write) {s : State} {resumed : Option Nat} (h : s.Sole resumed) {n : Nat}
    (hn : 2*pass.rest.length+1≤n) :
    Ended hash pass (pass.rest.any (p.stops pass.refreshDrift))
      (ws ++ (reconcileDone env p.toAnswers inst).writes ++
        passWrites env p.toAnswers pass.refreshDrift (p.through pass.refreshDrift pass.rest))
      (pass.results ++ [renderedResult inst (reconcileDone env p.toAnswers inst)] ++
        passResults env p.toAnswers pass.refreshDrift (p.through pass.refreshDrift pass.rest))
      s.tables
      (settle hash env p n
        (s.run hash resumed { writes := ws, task := some (.reconcile inst pass) }, none)) := by
  obtain ⟨m, rfl⟩ : ∃ m, n=m+1 := ⟨n-1, by omega⟩
  have hres : (Task.reconcile inst pass).resume env (.rendered (p.render inst)) =
      some (reconcileNext env pass (reconcileDone env p.toAnswers inst).writes pass.rest
        (pass.results ++ [renderedResult inst (reconcileDone env p.toAnswers inst)])) := rfl
  obtain ⟨s', id, hsole, htables, hset⟩ :=
    settle_waits (p := p) h ws (fun s' id ht => by rw [answer, ht]) hres m
  rw [hset, List.append_assoc]
  exact (ih pass _ _ s' (some id) m hsole (by omega)).after htables

theorem reconcileInstance_plain (env : Env) (p : Answers) {refreshDrift : Bool} {inst : ServiceInstance}
    (h : (refreshDrift && decide (inst.status=.succeeded))=false) :
    refreshWrites env p refreshDrift inst=[] ∧ refreshedRecord p refreshDrift inst=inst := by
  simp [refreshWrites, refreshedRecord, h]

theorem passWrites_cons (env : Env) (p : Answers) (refreshDrift : Bool) (inst : ServiceInstance)
    (rest : List ServiceInstance) :
    passWrites env p refreshDrift (inst::rest) =
      (reconcileInstance env p refreshDrift inst).1 ++ passWrites env p refreshDrift rest := rfl

theorem passResults_cons (env : Env) (p : Answers) (refreshDrift : Bool) (inst : ServiceInstance)
    (rest : List ServiceInstance) :
    passResults env p refreshDrift (inst::rest) =
      [(reconcileInstance env p refreshDrift inst).2] ++ passResults env p refreshDrift rest := rfl

/-- A pass that waits for a diff reconciles or skips the record and goes on. -/
theorem settle_diff (pass : Pass) (ih : Loops hash env p pass.rest) {inst : ServiceInstance}
    (hd : (pass.refreshDrift && decide (inst.status=.succeeded))=true)
    (ws : List Write) {s : State} {resumed : Option Nat} (h : s.Sole resumed) {n : Nat}
    (hn : 2*pass.rest.length+2≤n) :
    Ended hash pass ((inst::pass.rest).any (p.stops pass.refreshDrift))
      (ws ++ passWrites env p.toAnswers pass.refreshDrift
        (p.through pass.refreshDrift (inst::pass.rest)))
      (pass.results ++ passResults env p.toAnswers pass.refreshDrift
        (p.through pass.refreshDrift (inst::pass.rest))) s.tables
      (settle hash env p n
        (s.run hash resumed { writes := ws, task := some (.diff inst pass) }, none)) := by
  obtain ⟨m, rfl⟩ : ∃ m, n=m+1 := ⟨n-1, by omega⟩
  cases hraise : p.raises inst with
  | true =>
    have hstop : p.stops pass.refreshDrift inst=true := by simp [Replies.stops, hd, hraise]
    have hres : (Task.diff inst pass).resume env .diffRaised=some (abandoned pass) := rfl
    obtain ⟨s', id, hsole, htables, hset⟩ :=
      settle_waits (p := p) h ws (fun s' id ht => by simp [answer, ht, hraise]) hres m
    have hidle : (s'.run hash (some id) (abandoned pass)).tasks=[] := hsole.tasks_run _
    rw [hset, settle_idle hidle]
    refine ⟨hidle, ?_, ?_⟩
    · simp [tables_run, abandoned, htables, Replies.through, hstop, passWrites]
    · simp [abandoned, hstop]
  | false =>
    have hgo : p.stops pass.refreshDrift inst=false := by simp [Replies.stops, hraise]
    have hres : (Task.diff inst pass).resume env (.diffed (p.diff inst)) =
        some (diffed env inst pass (p.diff inst)) := rfl
    obtain ⟨s', id, hsole, htables, hset⟩ :=
      settle_waits (p := p) h ws (fun s' id ht => by simp [answer, ht, hraise]) hres m
    have hws : refreshWrites env p.toAnswers pass.refreshDrift inst =
        ((refreshedDrift inst (p.diff inst)).map (putOr env)).getD [] := by
      simp only [refreshWrites, hd, if_true]
    have hrec : refreshedRecord p.toAnswers pass.refreshDrift inst =
        (refreshedDrift inst (p.diff inst)).getD inst := by
      simp only [refreshedRecord, hd, if_true]
    have hdiff : diffed env inst pass (p.diff inst)=_ := diffed.eq_1 env inst pass (p.diff inst)
    simp only [← hws, ← hrec] at hdiff
    rw [hset, hdiff, through_cons hgo, passWrites_cons, passResults_cons, reconcileInstance,
      List.any_cons, hgo, Bool.false_or]
    apply Ended.after _ htables
    split
    · have hrun := settle_started pass ih
        (reconcileStarted (refreshedRecord p.toAnswers pass.refreshDrift inst))
        (refreshWrites env p.toAnswers pass.refreshDrift inst ++
          putOr env (reconcileStarted (refreshedRecord p.toAnswers pass.refreshDrift inst))) hsole
        (n := m) (by omega)
      rw [← List.append_assoc]
      exact hrun
    · rw [← List.append_assoc]
      exact ih pass _ _ s' (some id) m hsole (by omega)

theorem loops (hash : String → Nat) (env : Env) (p : Replies) (list : List ServiceInstance) :
    Loops hash env p list := by
  induction list with
  | nil =>
    intro pass ws results s resumed n h hn
    have htasks : (s.run hash resumed (reconcileNext env pass ws [] results)).tasks=[] :=
      h.tasks_run _
    rw [settle_idle htasks]
    refine ⟨htasks, ?_, ?_⟩
    · rw [tables_run]
      simp [reconcileNext, passWrites, Replies.through]
    · simp [reconcileNext, passResults, Replies.through]
  | cons inst rest ih =>
    intro pass ws results s resumed n h hn
    simp only [List.length_cons] at hn
    rw [reconcileNext]
    split
    · next hd =>
      obtain ⟨htasks, htables, hreply⟩ := settle_diff
        ⟨pass.checked, pass.refreshDrift, pass.manual, rest, results⟩ ih hd ws h hn
      exact ⟨htasks, htables, hreply⟩
    · next hd =>
      have hplain : (pass.refreshDrift && decide (inst.status=.succeeded))=false := by simpa using hd
      have hgo : p.stops pass.refreshDrift inst=false := by simp [Replies.stops, hplain]
      obtain ⟨hws, hrec⟩ := reconcileInstance_plain env p.toAnswers hplain
      rw [through_cons hgo, passWrites_cons, passResults_cons, reconcileInstance, hws, hrec,
        List.any_cons, hgo, Bool.false_or]
      split
      · next hneed =>
        have hrun := settle_started
          ⟨pass.checked, pass.refreshDrift, pass.manual, rest, results⟩ ih
          (reconcileStarted inst) (ws ++ putOr env (reconcileStarted inst)) h (n := n)
          (by dsimp only; omega)
        refine ⟨hrun.tasks, ?_, ?_⟩
        · rw [hrun.tables]
          simp
        · rw [hrun.reply]
          simp
      · have hrun := ih pass ws (results++[skippedResult inst]) s resumed n h (by omega)
        refine ⟨hrun.tasks, ?_, ?_⟩
        · rw [hrun.tables]
          rfl
        · rw [hrun.reply, List.append_assoc]

end Settles

/-! What the writes of a pass leave of one record. -/

/-- The record stored under `i` after a write. -/
def Write.onStored (i : String) (v : Option ServiceInstance) : Write → Option ServiceInstance
  | .put x => if x.instanceId=i then some x else v
  | .delete j => if j=i then none else v
  | _ => v

section Stored
variable {hash : String → Nat} {env : Env} {p : Answers}

theorem stored_apply (hash : String → Nat) (i : String) (t : Tables) (w : Write) :
    Store.stored (w.apply hash t).rows i=w.onStored i (Store.stored t.rows i) := by
  cases w with
  | put x =>
    by_cases h : x.instanceId=i
    · subst h
      simp [Write.apply, Write.onStored]
    · simp [Write.apply, Write.onStored, h,
        Store.stored_putInstance_other hash x t.rows i (fun he => h he.symm)]
  | delete j =>
    simp only [Write.apply, Write.onStored, Store.stored_deleteInstance]
    by_cases h : j=i
    · simp [h]
    · simp [h, Ne.symm h]
  | putBinding b => rfl
  | deleteBinding b => rfl
  | meter r => rfl
  | audit r => rfl

theorem stored_foldl (hash : String → Nat) (i : String) (ws : List Write) (t : Tables) :
    Store.stored (ws.foldl (Write.apply hash) t).rows i =
      ws.foldl (Write.onStored i) (Store.stored t.rows i) := by
  induction ws generalizing t with
  | nil => rfl
  | cons w ws ih => rw [List.foldl_cons, List.foldl_cons, ih, stored_apply]

theorem onStored_frame {i : String} {ws : List Write}
    (h : WritesOnly (fun x => x.instanceId≠i) ws) (v : Option ServiceInstance) :
    ws.foldl (Write.onStored i) v=v := by
  induction ws with
  | nil => rfl
  | cons w ws ih =>
    have hrest : WritesOnly (fun x => x.instanceId≠i) ws :=
      ⟨fun x hx => h.puts x (List.mem_cons_of_mem w hx),
        fun j hj => h.deletes j (List.mem_cons_of_mem w hj)⟩
    have hw : w.onStored i v=v := by
      cases w with
      | put x => exact if_neg (h.puts x List.mem_cons_self)
      | delete j => exact absurd List.mem_cons_self (h.deletes j)
      | putBinding b => rfl
      | deleteBinding b => rfl
      | meter r => rfl
      | audit r => rfl
    rw [List.foldl_cons, hw, ih hrest]

theorem kept_id (P : String → Prop) : Kept fun x => P x.instanceId where
  failed := fun _ _ h => h
  started := fun _ h => h
  refreshed := fun _ _ _ h hr => (touched_refreshedDrift hr).instanceId ▸ h

theorem refreshedRecord_id (refreshDrift : Bool) (inst : ServiceInstance) :
    (refreshedRecord p refreshDrift inst).instanceId=inst.instanceId := by
  rw [refreshedRecord]
  split
  · cases hr : refreshedDrift inst (p.diff inst) with
    | none => rfl
    | some x => exact (touched_refreshedDrift hr).instanceId
  · rfl

theorem reconcileInstance_writes {P : String → Prop} (refreshDrift : Bool)
    {inst : ServiceInstance} (h : P inst.instanceId) :
    WritesOnly (fun x => P x.instanceId) (reconcileInstance env p refreshDrift inst).1 := by
  have hid := refreshedRecord_id (p := p) refreshDrift inst
  have hr : WritesOnly (fun x => P x.instanceId) (refreshWrites env p refreshDrift inst) := by
    rw [refreshWrites]
    split
    · cases hr : refreshedDrift inst (p.diff inst) with
      | none => exact WritesOnly.nil
      | some x => exact writesOnly_putOr ((touched_refreshedDrift hr).instanceId ▸ h)
    · exact WritesOnly.nil
  have hstart : P (reconcileStarted (refreshedRecord p refreshDrift inst)).instanceId := by
    rw [(touched_reconcileStarted _).instanceId, hid]
    exact h
  rw [reconcileInstance]
  split
  · refine (hr.append (writesOnly_putOr hstart)).append ?_
    exact finalizeProvision_writes (kept_id P) _ _ _ _ _ _ hstart
      fun _ _ _ _ hx => (touched_succeeded hx).instanceId.symm ▸ hstart
  · exact hr

def left (env : Env) (p : Answers) (refreshDrift : Bool) (inst : ServiceInstance) :
    Option ServiceInstance :=
  (reconcileInstance env p refreshDrift inst).1.foldl (Write.onStored inst.instanceId) (some inst)

theorem passWrites_frame (refreshDrift : Bool) {i : String} {rest : List ServiceInstance}
    (hc : ∀ c∈rest, c.instanceId≠i) (v : Option ServiceInstance) :
    (passWrites env p refreshDrift rest).foldl (Write.onStored i) v=v := by
  induction rest generalizing v with
  | nil => rfl
  | cons c rest ih =>
    obtain ⟨hne, hrest⟩ := List.forall_mem_cons.mp hc
    rw [passWrites_cons, List.foldl_append,
      onStored_frame (reconcileInstance_writes (P := (· ≠ i)) refreshDrift hne), ih hrest v]

/-- In a pass over distinct records each is touched by its own writes only. -/
theorem passWrites_left (refreshDrift : Bool) {list : List ServiceInstance}
    (hn : (list.map ServiceInstance.instanceId).Nodup) {inst : ServiceInstance} (hi : inst∈list) :
    (passWrites env p refreshDrift list).foldl (Write.onStored inst.instanceId) (some inst) =
      left env p refreshDrift inst := by
  induction list with
  | nil => cases hi
  | cons c rest ih =>
    rw [passWrites_cons, List.foldl_append]
    obtain rfl | hi := List.mem_cons.mp hi
    · exact passWrites_frame refreshDrift (rest_ne hn) _
    · have hne : c.instanceId≠inst.instanceId := fun he => rest_ne hn inst hi he.symm
      rw [onStored_frame (reconcileInstance_writes (P := (· ≠ inst.instanceId)) refreshDrift hne)]
      exact ih (List.nodup_cons.mp hn).2 hi

/-- A refresh sets the drift status and no other field. -/
theorem refreshedRecord_eq (p : Answers) (refreshDrift : Bool) (inst : ServiceInstance) :
    refreshedRecord p refreshDrift inst =
      { inst with driftStatus := (refreshedRecord p refreshDrift inst).driftStatus } := by
  rw [refreshedRecord]
  split
  · cases hr : refreshedDrift inst (p.diff inst) with
    | none => rfl
    | some x =>
      simp only [refreshedDrift] at hr
      split at hr
      · cases hr
      · split at hr
        · cases hr
        · cases hr
          rfl
  · rfl

/-- A refresh changes nothing that the start of a reconcile does not set. -/
theorem reconcileStarted_refreshed (refreshDrift : Bool) (inst : ServiceInstance) :
    reconcileStarted (refreshedRecord p refreshDrift inst)=reconcileStarted inst := by
  rw [refreshedRecord_eq]
  rfl

theorem onStored_putOr (env : Env) (x : ServiceInstance) (v : Option ServiceInstance) :
    (putOr env x).foldl (Write.onStored x.instanceId) v =
      if env.faults.put then v else some x := by
  rw [putOr]
  split
  · rfl
  · simp [Write.onStored]

theorem onStored_refreshWrites (refreshDrift : Bool) (inst : ServiceInstance) :
    (refreshWrites env p refreshDrift inst).foldl (Write.onStored inst.instanceId) (some inst) =
      if env.faults.put then some inst else some (refreshedRecord p refreshDrift inst) := by
  rw [refreshWrites, refreshedRecord]
  split
  · cases hr : refreshedDrift inst (p.diff inst) with
    | none => simp
    | some x =>
      have hid : x.instanceId=inst.instanceId := (touched_refreshedDrift hr).instanceId
      simp only [Option.map_some, Option.getD_some, ← hid]
      exact onStored_putOr env x (some inst)
  · simp

/-- A reconciled record ends the same whether or not its drift was refreshed. -/
theorem left_reconciled (env : Env) (p : Answers) (refreshDrift : Bool) {inst : ServiceInstance}
    (h : needsReconcile (refreshedRecord p refreshDrift inst)=true) :
    (reconcileInstance env p refreshDrift inst).2 =
      renderedResult (reconcileStarted inst) (reconcileDone env p (reconcileStarted inst)) ∧
    left env p refreshDrift inst =
      (reconcileDone env p (reconcileStarted inst)).writes.foldl (Write.onStored inst.instanceId)
        (if env.faults.put then some inst else some (reconcileStarted inst)) := by
  have hid : (reconcileStarted inst).instanceId=inst.instanceId :=
    (touched_reconcileStarted inst).instanceId
  have hput := onStored_putOr env (reconcileStarted inst)
  rw [hid] at hput
  simp only [left, reconcileInstance, h, if_true, reconcileStarted_refreshed, List.foldl_append,
    onStored_refreshWrites, hput]
  refine ⟨trivial, ?_⟩
  split <;> rfl

theorem left_skipped (env : Env) (p : Answers) (refreshDrift : Bool) {inst : ServiceInstance}
    (h : needsReconcile (refreshedRecord p refreshDrift inst)=false) :
    (reconcileInstance env p refreshDrift inst).2 =
      skippedResult (refreshedRecord p refreshDrift inst) ∧
    left env p refreshDrift inst =
      if env.faults.put then some inst else some (refreshedRecord p refreshDrift inst) := by
  simp [left, reconcileInstance, h, onStored_refreshWrites]

end Stored

def observed (inst : ServiceInstance) : DriftStatus × InstanceStatus × Option Int :=
  (inst.driftStatus, inst.status, inst.appliedVersion)

/-- The diff was made and says so. -/
def Confirms (name : String) (answer : Option Artifact) : Prop :=
  ∃ r, answer=some r ∧ refreshedDrift.truthyMember "unknown" r=false ∧
    refreshedDrift.truthyMember name r=true

section Agreement
variable {env : Env} {p : Answers} {inst : ServiceInstance}

theorem refreshedDrift_eq {r : Artifact} (hu : refreshedDrift.truthyMember "unknown" r=false) :
    refreshedDrift inst (some r)=some { inst with
      driftStatus := if refreshedDrift.truthyMember "drifted" r then .drifted else .inSync } := by
  simp [refreshedDrift, hu]

end Agreement

/-! The passes as the broker runs them. -/

theorem collect_whole (limit : Int) (taken : Nat) (rows : List Row)
    (h : (taken+rows.length : Int)≤ max limit 1) :
    Store.collect none limit taken rows=rows.filterMap Row.payload := by
  induction rows generalizing taken with
  | nil => rfl
  | cons row rows ih =>
    simp only [List.length_cons] at h
    cases hp : row.payload with
    | none =>
      rw [Store.collect, hp, List.filterMap_cons_none hp]
      exact ih taken (by omega)
    | some inst =>
      rw [Store.collect, hp, List.filterMap_cons_some hp]
      simp only [ne_eq, not_true_eq_false, false_and, if_false]
      split
      · have hz : rows.length=0 := by omega
        rw [List.length_eq_zero_iff.mp hz]
        rfl
      · rw [ih (taken+1) (by omega)]

/-- What a pass over a table that fits one page meets. -/
def listed (env : Env) (t : Tables) : List ServiceInstance :=
  if env.faults.scan then [] else t.rows.filterMap Row.payload

section Listed
variable {t : Tables} {limit : Int}

theorem listInstances_listed {env : Env} (hf : t.rows.length≤env.fits)
    (h : t.rows.length≤Store.pageLimit limit) :
    Store.listInstances env.faults.toStoreFaults (scanned env t.rows) none limit=listed env t := by
  have hlen : (t.rows.length : Int)≤ max limit 1 := by
    simp only [Store.pageLimit] at h
    omega
  simp only [scanned, List.take_of_length_le hf, Store.listInstances, Store.scan,
    List.take_of_length_le h, listed]
  rw [collect_whole limit 0 t.rows (by omega)]

theorem length_listed (env : Env) (t : Tables) : (listed env t).length≤t.rows.length := by
  rw [listed]
  split
  · exact Nat.zero_le _
  · exact List.length_filterMap_le _ _

end Listed

/-! What a pass that may stop classifies. -/

def ReconcileResult.instanceId : ReconcileResult → String
  | .skipped instanceId _ _ => instanceId
  | .failed instanceId _ _ _ _ => instanceId
  | .reconciled instanceId _ _ _ _ => instanceId

/-- How a pass over the list classifies a record, if it gets to it. -/
def decision (env : Env) (p : Replies) (refreshDrift : Bool) (list : List ServiceInstance)
    (inst : ServiceInstance) : Option String :=
  ((passResults env p.toAnswers refreshDrift (p.through refreshDrift list)).find? fun r =>
    decide (r.instanceId=inst.instanceId)).map ReconcileResult.action

section Decision
variable {env : Env} {p : Replies} {refreshDrift : Bool} {list : List ServiceInstance}
  {inst : ServiceInstance}

theorem through_manual (p : Replies) (list : List ServiceInstance) : p.through false list=list := by
  simp [Replies.through, Replies.stops]

theorem stops_manual (p : Replies) (list : List ServiceInstance) :
    list.any (p.stops false)=false := by
  simp [Replies.stops]

theorem through_of_readable (h : ∀ x∈list, x.status=.succeeded → p.raises x=false) :
    p.through true list=list := by
  refine List.takeWhile_eq_self_iff.mpr fun x hx => ?_
  by_cases hs : x.status=.succeeded
  · simp [Replies.stops, h x hx hs]
  · simp [Replies.stops, hs]

end Decision

section Passes
variable (hash : String → Nat) (env : Env) (p : Replies) (t : Tables)

theorem runPass_ended {first : Event} {refreshDrift manual : Bool} {list : List ServiceInstance}
    (hseg : segment env { tables := t } first =
      some (none, startPass env refreshDrift manual list))
    (hl : list.length≤t.rows.length) :
    Ended hash { checked := list.length, refreshDrift, manual, rest := [], results := [] }
      (list.any (p.stops refreshDrift))
      (passWrites env p.toAnswers refreshDrift (p.through refreshDrift list))
      (passResults env p.toAnswers refreshDrift (p.through refreshDrift list)) t
      (runPass hash env p first t) := by
  have hstep : step hash { tables := t } (env, first) =
      State.run hash { tables := t } none (startPass env refreshDrift manual list) :=
    step_segment hseg
  have hreply : reply { tables := t } (env, first) =
      (startPass env refreshDrift manual list).reply := by
    simp [reply, hseg]
  rw [runPass, hstep, hreply]
  exact loops hash env p list
    { checked := list.length, refreshDrift, manual, rest := [], results := [] } [] []
    { tables := t } none _ rfl (by omega)

theorem manualPass_ended {auth : AuthHeader} {caller : Caller}
    (ha : stateChangeIdentify env.settings env.decode auth=.ok caller)
    (hb : caller.isBasic=true) (hf : t.rows.length≤env.fits) {limit : Int}
    (hl : t.rows.length≤Store.pageLimit limit) :
    Ended hash { checked := (listed env t).length, refreshDrift := false, manual := true
                 rest := [], results := [] } false
      (passWrites env p.toAnswers false (listed env t))
      (passResults env p.toAnswers false (listed env t)) t
      (manualPass hash env p auth limit t) := by
  have hseg : segment env { tables := t } (.request auth (.reconcile none limit)) =
      some (none, startPass env false true (listed env t)) := by
    simp [segment, ha, serve, reconcile, hb, listInstances_listed hf hl]
  have hended := runPass_ended hash env p t hseg (length_listed env t)
  rwa [through_manual, stops_manual] at hended

theorem periodicPass_ended (hf : t.rows.length≤env.fits)
    (hl : t.rows.length≤Store.pageLimit env.settings.reconcileBatchLimit) :
    Ended hash { checked := (listed env t).length, refreshDrift := true, manual := false
                 rest := [], results := [] } ((listed env t).any (p.stops true))
      (passWrites env p.toAnswers true (p.through true (listed env t)))
      (passResults env p.toAnswers true (p.through true (listed env t))) t
      (periodicPass hash env p t) := by
  refine runPass_ended hash env p t ?_ (length_listed env t)
  simp [segment, listInstances_listed hf hl]

variable {hash env p t}

theorem nodup_listed_ids (hw : Store.WellFormed t.rows) (hf : t.rows.length≤env.fits) {limit : Int}
    (hl : t.rows.length≤Store.pageLimit limit) :
    ((listed env t).map ServiceInstance.instanceId).Nodup := by
  rw [← listInstances_listed hf hl]
  exact (hw.take env.fits).nodup_listInstances env.faults.toStoreFaults limit

theorem stored_of_listed (hw : Store.WellFormed t.rows) (hf : t.rows.length≤env.fits) {limit : Int}
    (hl : t.rows.length≤Store.pageLimit limit) {inst : ServiceInstance}
    (hi : inst∈listed env t) : Store.stored t.rows inst.instanceId=some inst := by
  rw [← listInstances_listed hf hl] at hi
  exact stored_of_mem_scanned env hw hi

theorem Ended.stored {pass : Pass} {stopped refreshDrift : Bool} {results : List ReconcileResult}
    {s : Answered} {p : Answers}
    (h : Ended hash pass stopped (passWrites env p refreshDrift (listed env t)) results t s)
    (hw : Store.WellFormed t.rows) (hf : t.rows.length≤env.fits) {limit : Int}
    (hl : t.rows.length≤Store.pageLimit limit) {inst : ServiceInstance} (hi : inst∈listed env t) :
    Store.stored s.1.tables.rows inst.instanceId=left env p refreshDrift inst := by
  rw [h.tables, stored_foldl, stored_of_listed hw hf hl hi]
  exact passWrites_left refreshDrift (nodup_listed_ids hw hf hl) hi

variable (hash env p t)

end Passes

end Sovereign.Broker
