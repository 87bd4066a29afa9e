import Sovereign.Passes
import Sovereign.Interleaving

/-! How much of the instance table the periodic reconciler examines. A pass lists one page
from the start of the table, whatever the pass before it listed. -/
namespace Sovereign.Broker
open Sovereign Policy Renderers

/-- The records that the loop of a pass hands to `_reconcile_instance` before it awaits. -/
def handedBy (refreshDrift : Bool) : List ServiceInstance → List ServiceInstance
  | [] => []
  | inst::rest =>
    if refreshDrift && decide (inst.status=.succeeded) then [inst]
    else if needsReconcile inst then [inst]
    else inst::handedBy refreshDrift rest

def Task.handed : Task → Outcome → List ServiceInstance
  | .diff inst pass, .diffed result =>
    if needsReconcile ((refreshedDrift inst result).getD inst) then []
    else handedBy pass.refreshDrift pass.rest
  | .reconcile _ pass, .rendered _ => handedBy pass.refreshDrift pass.rest
  | _, _ => []

def handed (s : State) (a : Env × Event) : List ServiceInstance :=
  match a.2 with
  | .tick => handedBy true (Store.listInstances a.1.faults.toStoreFaults
      (scanned a.1 s.tables.rows) none a.1.settings.reconcileBatchLimit)
  | .resume id outcome => ((s.tasks.lookup id).map fun task => task.handed outcome).getD []
  | .request _ _ => []

/-- Only the reconciler is at work, one pass after the other, and its listings succeed. -/
def Alone (limit : Int) (s : State) (a : Env × Event) : Prop :=
  match a.2 with
  | .tick => s.tasks=[] ∧ a.1.faults.scan=false ∧ a.1.settings.reconcileBatchLimit=limit
  | .resume id outcome => s.tasks.map Prod.fst=[id] ∧
      ((s.tasks.lookup id).bind fun task => task.resume a.1 outcome).isSome=true
  | .request _ _ => False

instance (limit : Int) (s : State) : ∀ a : Env × Event, Decidable (Alone limit s a)
  | (_, .tick) => inferInstanceAs (Decidable (_ ∧ _ ∧ _))
  | (_, .resume _ _) => inferInstanceAs (Decidable (_ ∧ _))
  | (_, .request _ _) => isFalse fun h => h

def startsPass (a : Env × Event) : Bool :=
  match a.2 with
  | .tick => true
  | _ => false

def Task.isPass : Task → Bool
  | .diff _ _ => true
  | .reconcile _ _ => true
  | _ => false

def Task.remaining : Task → List ServiceInstance
  | .diff _ pass => pass.rest
  | .reconcile _ pass => pass.rest
  | _ => []

/-- The step raises out of a pass that has records left. -/
def cutsOff (s : State) (a : Env × Event) : Bool :=
  match a.2 with
  | .resume id .diffRaised =>
    ((s.tasks.lookup id).map fun task => !task.remaining.isEmpty).getD false
  | _ => false

/-- The pass under way comes to its end: nothing cuts it off before the next one starts. -/
def Uncut (hash : String → Nat) : State → List (Env × Event) → Prop
  | _, [] => True
  | s, a::as => startsPass a=true ∨ cutsOff s a=false ∧ Uncut hash (step hash s a) as

def firstPage (env : Env) (limit : Int) (ids : List String) : List String :=
  ids.take (min (Store.pageLimit limit) env.fits)

def Task.awaits : Task → Nat
  | .diff _ pass => 2*pass.rest.length+1
  | .reconcile _ pass => 2*pass.rest.length
  | _ => 0

section Pass
variable {env : Env}

theorem reconcileNext_handed (pass : Pass) (ws : List Write) (list : List ServiceInstance)
    (results : List ReconcileResult) :
    handedBy pass.refreshDrift list ++
      (reconcileNext env pass ws list results).task.toList.flatMap Task.remaining=list := by
  induction list generalizing results with
  | nil => rfl
  | cons inst rest ih =>
    simp only [handedBy, reconcileNext]
    split
    · simp [Task.remaining]
    · split
      · simp [Task.remaining]
      · rw [List.cons_append, ih (results++[skippedResult inst])]

theorem startPass_handed (env : Env) (refreshDrift manual : Bool) (list : List ServiceInstance) :
    handedBy refreshDrift list ++
      (startPass env refreshDrift manual list).task.toList.flatMap Task.remaining=list :=
  reconcileNext_handed { checked := list.length, refreshDrift, manual, rest := [], results := [] }
    [] list []

theorem reconcileNext_left {pass : Pass} {ws : List Write} {list : List ServiceInstance}
    {results : List ReconcileResult} {task : Task}
    (h : task∈(reconcileNext env pass ws list results).task) :
    task.isPass=true ∧ task.awaits<2*list.length := by
  induction list generalizing results with
  | nil => cases h
  | cons inst rest ih =>
    simp only [reconcileNext] at h
    split at h
    · cases h
      exact ⟨rfl, by simp only [Task.awaits, List.length_cons]; omega⟩
    · split at h
      · cases h
        exact ⟨rfl, by simp only [Task.awaits, List.length_cons]; omega⟩
      · obtain ⟨hp, hlt⟩ := ih h
        exact ⟨hp, by simp only [List.length_cons]; omega⟩

theorem diffed_handed (inst : ServiceInstance) (pass : Pass) (result : Option Artifact) :
    (Task.diff inst pass).handed (.diffed result) ++
      (diffed env inst pass result).task.toList.flatMap Task.remaining=pass.rest := by
  simp only [Task.handed, diffed]
  split
  · simp [Task.remaining]
  · exact reconcileNext_handed pass _ pass.rest _

theorem diffed_left {inst : ServiceInstance} {pass : Pass} {result : Option Artifact}
    {task : Task} (h : task∈(diffed env inst pass result).task) :
    task.isPass=true ∧ task.awaits<(Task.diff inst pass).awaits := by
  simp only [diffed] at h
  split at h
  · cases h
    exact ⟨rfl, by simp only [Task.awaits]; omega⟩
  · obtain ⟨hp, hlt⟩ := reconcileNext_left h
    exact ⟨hp, Nat.lt_succ_of_lt hlt⟩

variable {task : Task} {outcome : Outcome} {seg : Segment}

theorem resume_handed (hp : task.isPass=true) (h : task.resume env outcome=some seg)
    (hr : outcome≠.diffRaised) :
    task.handed outcome++seg.task.toList.flatMap Task.remaining=task.remaining := by
  cases resumed_of_resume h with
  | provision inst caller tenantId background result => cases hp
  | update inst caller tenantId result => cases hp
  | teardown instanceId inst caller tenantId result => cases hp
  | diff inst pass result => exact diffed_handed inst pass result
  | abandoned inst pass => exact absurd rfl hr
  | reconcile inst pass result => exact reconcileNext_handed pass _ pass.rest _

theorem resume_raised (h : task.resume env .diffRaised=some seg) :
    task.handed .diffRaised=[] ∧ seg.task=none := by
  cases resumed_of_resume h with
  | abandoned inst pass => exact ⟨rfl, rfl⟩

/-- Whatever the answer, a resumed pass has fewer awaits left. -/
theorem resume_left (hp : task.isPass=true) (h : task.resume env outcome=some seg) {left : Task}
    (hl : left∈seg.task) : left.isPass=true ∧ left.awaits<task.awaits := by
  cases resumed_of_resume h with
  | provision inst caller tenantId background result => cases hp
  | update inst caller tenantId result => cases hp
  | teardown instanceId inst caller tenantId result => cases hp
  | diff inst pass result => exact diffed_left hl
  | abandoned inst pass => cases hl
  | reconcile inst pass result => exact reconcileNext_left hl

end Pass

structure Sweeping (ids : List String) (s : State) : Prop where
  wellFormed : Store.WellFormed s.tables.rows
  order : s.tables.rows.map Row.instanceId=ids
  passes : ∀ t∈s.tasks, t.2.isPass=true
  copies : ∀ t∈s.tasks, ∀ c∈t.2.copies, c.instanceId∈ids

def State.remaining (s : State) : List String :=
  (s.tasks.flatMap fun t => t.2.remaining).map ServiceInstance.instanceId

section Sweeping
variable {hash : String → Nat} {ids : List String} {limit : Int} {s : State} {a : Env × Event}

theorem kept_ids (ids : List String) : Kept fun x => x.instanceId∈ids where
  failed := fun _ _ h => h
  started := fun _ h => h
  refreshed := fun _ _ _ h hr => (touched_refreshedDrift hr).instanceId ▸ h

theorem ids_writes {ws : List Write} (hw : WritesOnly (fun x => x.instanceId∈ids) ws)
    {t : Tables} (ht : t.rows.map Row.instanceId=ids) :
    (ws.foldl (Write.apply hash) t).rows.map Row.instanceId=ids := by
  induction ws generalizing t with
  | nil => exact ht
  | cons w ws ih =>
    refine ih ⟨fun x hx => hw.puts x (List.mem_cons_of_mem w hx),
      fun i hi => hw.deletes i (List.mem_cons_of_mem w hi)⟩ ?_
    cases w with
    | put x =>
      have hx : x.instanceId∈t.rows.map Row.instanceId := ht ▸ hw.puts x List.mem_cons_self
      exact (Store.ids_putInstance hash hx).trans ht
    | delete i => exact absurd List.mem_cons_self (hw.deletes i)
    | putBinding b => exact ht
    | deleteBinding i => exact ht
    | meter r => exact ht
    | audit r => exact ht

theorem Sweeping.run (h : Sweeping ids s) {resumed : Option Nat} {seg : Segment}
    (hc : seg.Carries fun x => x.instanceId∈ids) (hp : ∀ task∈seg.task, task.isPass=true) :
    Sweeping ids (s.run hash resumed seg) := by
  refine ⟨wellFormed_writes hash h.wellFormed seg.writes, ids_writes hc.writes h.order, ?_, ?_⟩
  · intro t ht
    cases mem_tasks_run ht with
    | inl ht => exact h.passes t ht
    | inr ht => exact hp t.2 ht
  · intro t ht
    cases mem_tasks_run ht with
    | inl ht => exact h.copies t ht
    | inr ht => exact hc.copies t.2 ht

theorem remaining_tasks {n : Nat} {seg : Segment}
    (h : s.tasks=seg.task.toList.map fun t => (n, t)) :
    s.remaining=(seg.task.toList.flatMap Task.remaining).map ServiceInstance.instanceId := by
  rw [State.remaining, h, List.flatMap_map]

theorem tasks_tick {seg : Segment} (h : s.tasks=[]) :
    (s.run hash none seg).tasks=seg.task.toList.map fun t => (s.nextTask, t) := by
  simp [State.run, h]

theorem tasks_resume (hash : String → Nat) {id : Nat} {task : Task} (seg : Segment)
    (h : s.tasks=[(id, task)]) :
    (s.run hash (some id) seg).tasks=seg.task.toList.map fun t => (id, t) := by
  simp [State.run, h]

theorem Sweeping.tick (hash : String → Nat) {env : Env} (h : Sweeping ids s)
    (ha : Alone limit s (env, .tick)) :
    Sweeping ids (step hash s (env, .tick)) ∧
      (handed s (env, .tick)).map ServiceInstance.instanceId ++
        (step hash s (env, .tick)).remaining=firstPage env limit ids := by
  obtain ⟨hidle, hscan, hlimit⟩ := ha
  have hlimit' : env.settings.reconcileBatchLimit=limit := hlimit
  have hlist : (Store.listInstances env.faults.toStoreFaults (scanned env s.tables.rows) none
      env.settings.reconcileBatchLimit).map ServiceInstance.instanceId =
        firstPage env limit ids := by
    rw [scanned, (h.wellFormed.take env.fits).ids_listInstances hscan, List.map_take, h.order,
      List.take_take, hlimit', firstPage]
  have hstep : step hash s (env, .tick)=s.run hash none (startPass env true false
      (Store.listInstances env.faults.toStoreFaults (scanned env s.tables.rows) none
        env.settings.reconcileBatchLimit)) := rfl
  rw [hstep]
  constructor
  · refine h.run (startPass_carries (kept_ids ids) true false _ ?_) fun task ht =>
      (reconcileNext_left ht).1
    intro x hx
    have hm : x.instanceId∈firstPage env limit ids := hlist ▸ List.mem_map.mpr ⟨x, hx, rfl⟩
    exact List.mem_of_mem_take hm
  · rw [remaining_tasks (tasks_tick hidle), ← List.map_append, ← hlist]
    exact congrArg _ (startPass_handed env true false _)

theorem Alone.task {env : Env} {id : Nat} {outcome : Outcome}
    (ha : Alone limit s (env, .resume id outcome)) :
    ∃ task seg, s.tasks=[(id, task)] ∧ task.resume env outcome=some seg := by
  obtain ⟨hids, hsome⟩ := ha
  obtain ⟨t, hts, hid⟩ := List.map_eq_singleton_iff.mp hids
  obtain ⟨seg, hseg⟩ := Option.isSome_iff_exists.mp hsome
  obtain ⟨task, hl, hres⟩ := Option.bind_eq_some_iff.mp hseg
  refine ⟨task, seg, ?_, hres⟩
  obtain ⟨n, task'⟩ := t
  subst hid
  rw [hts] at hl ⊢
  have he : task'=task := by simpa using hl
  rw [he]

theorem step_resume (hash : String → Nat) {env : Env} {id : Nat} {outcome : Outcome}
    {task : Task} {seg : Segment} (ht : s.tasks=[(id, task)])
    (hres : task.resume env outcome=some seg) :
    step hash s (env, .resume id outcome)=s.run hash (some id) seg := by
  refine step_segment ?_
  simp [segment, ht, hres]

theorem Sweeping.resume (hash : String → Nat) {env : Env} {id : Nat} {outcome : Outcome}
    (h : Sweeping ids s) (ha : Alone limit s (env, .resume id outcome)) :
    Sweeping ids (step hash s (env, .resume id outcome)) := by
  obtain ⟨task, seg, ht, hres⟩ := ha.task
  have hmem : (id, task)∈s.tasks := ht ▸ List.mem_cons_self
  have hp : task.isPass=true := h.passes (id, task) hmem
  rw [step_resume hash ht hres]
  refine h.run (resume_carries (kept_ids ids) hres ?_ (h.copies (id, task) hmem) ?_)
    fun left hl => (resume_left hp hres hl).1
  · cases task with
    | teardown i inst caller tenantId => cases hp
    | provision inst caller tenantId background => cases hp
    | update inst caller tenantId => cases hp
    | diff inst pass => rfl
    | reconcile inst pass => rfl
  · intro inst artifact x _ hr _ hx
    rw [(touched_succeeded hx).instanceId]
    exact h.copies (id, task) hmem inst (rendering_mem hr)

theorem Sweeping.handed_resume (hash : String → Nat) {env : Env} {id : Nat} {outcome : Outcome}
    (h : Sweeping ids s) (ha : Alone limit s (env, .resume id outcome))
    (hu : cutsOff s (env, .resume id outcome)=false) :
    (handed s (env, .resume id outcome)).map ServiceInstance.instanceId ++
        (step hash s (env, .resume id outcome)).remaining=s.remaining := by
  obtain ⟨task, seg, ht, hres⟩ := ha.task
  have hp : task.isPass=true := h.passes (id, task) (ht ▸ List.mem_cons_self)
  have hh : handed s (env, .resume id outcome)=task.handed outcome := by simp [handed, ht]
  have hr : s.remaining=task.remaining.map ServiceInstance.instanceId := by
    simp [State.remaining, ht]
  rw [step_resume hash ht hres, remaining_tasks (tasks_resume hash seg ht), hh, hr,
    ← List.map_append]
  by_cases ho : outcome=.diffRaised
  · subst ho
    obtain ⟨hnone, hleft⟩ := resume_raised hres
    have hempty : task.remaining=[] := by simpa [cutsOff, ht] using hu
    rw [hnone, hleft, hempty]
    rfl
  · rw [resume_handed hp hres ho]

/-- A step that raises hands nothing over, and the pass is gone. -/
theorem Sweeping.handed_cutOff (hash : String → Nat) {env : Env} {id : Nat} {outcome : Outcome}
    (ha : Alone limit s (env, .resume id outcome))
    (hc : cutsOff s (env, .resume id outcome)=true) :
    handed s (env, .resume id outcome)=[] ∧ s.remaining≠[] ∧
      (step hash s (env, .resume id outcome)).remaining=[] := by
  obtain ⟨task, seg, ht, hres⟩ := ha.task
  cases outcome with
  | rendered result => cases hc
  | diffed result => cases hc
  | tornDown result => cases hc
  | diffRaised =>
    obtain ⟨hnone, hleft⟩ := resume_raised hres
    refine ⟨by simp [handed, ht, hnone], ?_, ?_⟩
    · simpa [cutsOff, ht, State.remaining] using hc
    · rw [step_resume hash ht hres, remaining_tasks (tasks_resume hash seg ht), hleft]
      rfl

theorem uncut_resume {env : Env} {id : Nat} {outcome : Outcome} {as : List (Env × Event)} :
    Uncut hash s ((env, .resume id outcome)::as) ↔ cutsOff s (env, .resume id outcome)=false ∧
      Uncut hash (step hash s (env, .resume id outcome)) as := by
  simp [Uncut, startsPass]

/-- A pass that is cut off later has records left now. -/
theorem Sweeping.remaining_of_cut (h : Sweeping ids s) {as : List (Env × Event)}
    (ha : Trace.Along (step hash) (Alone limit) s as) (hu : ¬ Uncut hash s as) :
    s.remaining≠[] := by
  induction as generalizing s with
  | nil => exact absurd trivial hu
  | cons a as ih =>
    obtain ⟨hfirst, hrest⟩ := ha
    obtain ⟨env, event⟩ := a
    cases event with
    | request auth req => cases hfirst
    | tick => exact absurd (Or.inl rfl) hu
    | resume id outcome =>
      cases hcut : cutsOff s (env, .resume id outcome) with
      | true => exact (Sweeping.handed_cutOff hash hfirst hcut).2.1
      | false =>
        have hlater : ¬ Uncut hash (step hash s (env, .resume id outcome)) as :=
          fun hu' => hu (uncut_resume.mpr ⟨hcut, hu'⟩)
        have hleft := ih (h.resume hash hfirst) hrest hlater
        rw [← h.handed_resume hash hfirst hcut]
        exact List.append_ne_nil_of_right_ne_nil _ hleft

/-- The pass under way does not come to the last record: it is past it or does not list it,
or it is cut off before. -/
def Misses (hash : String → Nat) (last : String) (front : List String) (s : State)
    (as : List (Env × Event)) : Prop :=
  last∉s.remaining ∨ s.remaining <:+ front++[last] ∧ ¬ Uncut hash s as

variable {last : String} {front : List String}

/-- What is left of a pass and not empty ends with the last record, which has not been
handed over. -/
theorem last_not_handed (hn : (front++[last]).Nodup) {now later : List String}
    (hs : now++later <:+ front++[last]) (hl : later≠[]) : last∉now := by
  obtain ⟨before, hb⟩ := hs
  obtain ⟨most, final, hf⟩ := List.eq_nil_or_concat later |>.resolve_left hl
  subst hf
  have he : before++now++most=front ∧ final=last := by
    have hc : (before++now++most)++[final]=front++[last] := by simpa using hb
    exact List.append_singleton_inj.mp hc
  obtain ⟨rfl, rfl⟩ := he
  intro hm
  exact (List.nodup_append.mp hn).2.2 final (by simp [hm]) final (by simp) rfl

theorem Misses.resume (hn : (front++[last]).Nodup) {env : Env} {id : Nat} {outcome : Outcome}
    {as : List (Env × Event)} (h : Sweeping (front++[last]) s)
    (hfirst : Alone limit s (env, .resume id outcome))
    (hrest : Trace.Along (step hash) (Alone limit) (step hash s (env, .resume id outcome)) as)
    (hm : Misses hash last front s ((env, .resume id outcome)::as)) :
    last∉(handed s (env, .resume id outcome)).map ServiceInstance.instanceId ∧
      Misses hash last front (step hash s (env, .resume id outcome)) as := by
  cases hcut : cutsOff s (env, .resume id outcome) with
  | true =>
    obtain ⟨hnone, _, hgone⟩ := Sweeping.handed_cutOff hash hfirst hcut
    exact ⟨by simp [hnone], Or.inl (by simp [hgone])⟩
  | false =>
    have hsplit := h.handed_resume hash hfirst hcut
    cases hm with
    | inl hm =>
      rw [← hsplit, List.mem_append, not_or] at hm
      exact ⟨hm.1, Or.inl hm.2⟩
    | inr hm =>
      have hlater : ¬ Uncut hash (step hash s (env, .resume id outcome)) as :=
        fun hu' => hm.2 (uncut_resume.mpr ⟨hcut, hu'⟩)
      have hleft := (h.resume hash hfirst).remaining_of_cut hrest hlater
      rw [← hsplit] at hm
      exact ⟨last_not_handed hn hm.1 hleft,
        Or.inr ⟨(List.suffix_append _ _).trans hm.1, hlater⟩⟩

def NoneWhole (hash : String → Nat) (limit : Int) (n : Nat) (s : State)
    (as : List (Env × Event)) : Prop :=
  ∀ pre env post, as=pre++(env, .tick)::post → n ≤ min (Store.pageLimit limit) env.fits →
    ¬ Uncut hash (Trace.exec (step hash) s (pre++[(env, .tick)])) post

theorem NoneWhole.tail {n : Nat} {as : List (Env × Event)}
    (h : NoneWhole hash limit n s (a::as)) : NoneWhole hash limit n (step hash s a) as := by
  intro pre env post he
  exact h (a::pre) env post (by rw [he]; rfl)

def batchEnv (limit : Int) : Env :=
  { sampleEnv with settings := { reconcileBatchLimit := limit } }

theorem Sweeping.exec (h : Sweeping ids s) {as : List (Env × Event)}
    (ha : Trace.Along (step hash) (Alone limit) s as) :
    Sweeping ids (Trace.exec (step hash) s as) := by
  refine Trace.Along.invariant (Sweeping ids) (fun _ => True) ?_ h (fun _ _ => trivial) ha
  intro s a _ hs halone
  obtain ⟨env, event⟩ := a
  cases event with
  | request auth req => cases halone
  | tick => exact (hs.tick hash halone).1
  | resume id outcome => exact hs.resume hash halone

end Sweeping

end Sovereign.Broker
