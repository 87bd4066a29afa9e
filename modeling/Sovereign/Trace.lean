import Mathlib.Tactic.Linarith

/-! Runs of a deterministic system under a list of actions, and what holds at every
step of a run. -/
namespace Sovereign.Trace
variable {σ α : Type*} (step : σ → α → σ)

def exec : σ → List α → σ
  | s, [] => s
  | s, a::as => exec (step s a) as

/-- `P` holds at every step, of the state before it and the action. -/
def Along (P : σ → α → Prop) : σ → List α → Prop
  | _, [] => True
  | s, a::as => P s a ∧ Along P (step s a) as

def outputs {β : Type*} (out : σ → α → List β) : σ → List α → List β
  | _, [] => []
  | s, a::as => out s a++outputs out (step s a) as

variable {step}

theorem exec_append (s : σ) (as bs : List α) :
    exec step s (as++bs)=exec step (exec step s as) bs := by
  induction as generalizing s with
  | nil => rfl
  | cons a as ih => exact ih (step s a)

theorem exec_eq_foldl (s : σ) (as : List α) : exec step s as=as.foldl step s := by
  induction as generalizing s with
  | nil => rfl
  | cons a as ih => exact ih (step s a)

instance Along.decidable {P : σ → α → Prop} [∀ s a, Decidable (P s a)] :
    ∀ (s : σ) (as : List α), Decidable (Along step P s as)
  | _, [] => isTrue trivial
  | s, a::as => @instDecidableAnd _ _ _ (Along.decidable (step s a) as)

theorem Along.append_iff {P : σ → α → Prop} {s : σ} {as bs : List α} :
    Along step P s (as++bs) ↔ Along step P s as ∧ Along step P (exec step s as) bs := by
  induction as generalizing s with
  | nil => simp [Along, exec]
  | cons a as ih =>
    simp only [List.cons_append, Along, exec, ih, and_assoc]

/-- What holds along a run holds at its last step. -/
theorem Along.last {P : σ → α → Prop} {s : σ} {as : List α} {a : α}
    (h : Along step P s (as++[a])) : P (exec step s as) a := by
  induction as generalizing s with
  | nil => exact h.1
  | cons b as ih => exact ih h.2

/-- An invariant that steps keep under a condition gives, along every run that meets the
condition, whatever it implies at a step. -/
theorem Along.of_invariant (Inv : σ → Prop) {C P : σ → α → Prop}
    (hstep : ∀ s a, Inv s → C s a → Inv (step s a))
    (hP : ∀ s a, Inv s → C s a → P s a) {s : σ} (h : Inv s) {as : List α}
    (hc : Along step C s as) : Along step P s as := by
  induction as generalizing s with
  | nil => trivial
  | cons a as ih => exact ⟨hP s a h hc.1, ih (hstep s a h hc.1) hc.2⟩

/-- An invariant that allowed actions keep under a condition holds after every run of allowed
actions that meets the condition. -/
theorem Along.invariant (Inv : σ → Prop) (A : α → Prop) {C : σ → α → Prop}
    (hstep : ∀ s a, A a → Inv s → C s a → Inv (step s a)) {s : σ} (h : Inv s) {as : List α}
    (has : ∀ a∈as, A a) (hc : Along step C s as) : Inv (exec step s as) := by
  induction as generalizing s with
  | nil => exact h
  | cons a as ih =>
    obtain ⟨ha, has⟩ := List.forall_mem_cons.mp has
    exact ih (hstep s a ha h hc.1) has hc.2

theorem Along.of_true (s : σ) (as : List α) : Along step (fun _ _ => True) s as := by
  induction as generalizing s with
  | nil => exact True.intro
  | cons a as ih => exact ⟨True.intro, ih (step s a)⟩

/-- An invariant that also speaks of the actions so far. -/
theorem exec_history (Inv : List α → σ → Prop)
    (hstep : ∀ pre s a, Inv pre s → Inv (pre++[a]) (step s a)) {pre : List α} {s : σ}
    (h : Inv pre s) (as : List α) : Inv (pre++as) (exec step s as) := by
  induction as generalizing pre s with
  | nil => simpa [exec] using h
  | cons a as ih => simpa [exec] using ih (hstep pre s a h)

/-- What holds after a run and did not before has begun to hold at some step. -/
theorem exec_origin (Q : σ → Prop) {s : σ} (hs : ¬ Q s) {as : List α} (h : Q (exec step s as)) :
    ∃ pre a post, as=pre++a::post ∧ ¬ Q (exec step s pre) ∧ Q (step (exec step s pre) a) := by
  induction as generalizing s with
  | nil => exact absurd h hs
  | cons a as ih =>
    by_cases hstep : Q (step s a)
    · exact ⟨[], a, as, rfl, hs, hstep⟩
    · obtain ⟨pre, b, post, rfl, hb⟩ := ih hstep h
      exact ⟨a::pre, b, post, rfl, hb⟩

/-- Two systems that related actions keep related. -/
theorem exec_related {τ β : Type*} {step' : τ → β → τ} (R : σ → τ → Prop) {A : α → β → Prop}
    (hstep : ∀ s t a b, R s t → A a b → R (step s a) (step' t b)) {s : σ} {t : τ} (h : R s t)
    {as : List α} {bs : List β} (has : List.Forall₂ A as bs) :
    R (exec step s as) (exec step' t bs) := by
  induction has generalizing s t with
  | nil => exact h
  | cons hab _ ih => exact ih (hstep _ _ _ _ h hab)

/-- If they give out the same at every step, they do over the run. -/
theorem outputs_related {τ β γ : Type*} {step' : τ → β → τ} {out : σ → α → List γ}
    {out' : τ → β → List γ} (R : σ → τ → Prop) {A : α → β → Prop}
    (hstep : ∀ s t a b, R s t → A a b → R (step s a) (step' t b))
    (hout : ∀ s t a b, R s t → A a b → out s a=out' t b) {s : σ} {t : τ} (h : R s t)
    {as : List α} {bs : List β} (has : List.Forall₂ A as bs) :
    outputs step out s as=outputs step' out' t bs := by
  induction has generalizing s t with
  | nil => rfl
  | cons hab _ ih =>
    simp only [outputs]
    rw [hout _ _ _ _ h hab, ih (hstep _ _ _ _ h hab)]

structure Longest (step : σ → α → σ) (P : σ → α → Prop) (s : σ) (as pre : List α) : Prop where
  isPrefix : pre<+:as
  along : Along step P s pre
  longest : ∀ other, other<+:as → Along step P s other → other<+:pre

theorem Longest.nil (P : σ → α → Prop) (s : σ) : Longest step P s [] [] :=
  ⟨List.prefix_rfl, trivial, fun _ h _ => h⟩

theorem Longest.stop {P : σ → α → Prop} {s : σ} {a : α} (h : ¬ P s a) (as : List α) :
    Longest step P s (a::as) [] := by
  refine ⟨List.nil_prefix, trivial, ?_⟩
  intro other hp ho
  cases other with
  | nil => exact List.prefix_rfl
  | cons b bs =>
    obtain ⟨rfl, _⟩ := List.cons_prefix_cons.mp hp
    exact absurd ho.1 h

theorem Longest.cons {P : σ → α → Prop} {s : σ} {a : α} {as pre : List α} (h : P s a)
    (hrest : Longest step P (step s a) as pre) : Longest step P s (a::as) (a::pre) := by
  refine ⟨List.cons_prefix_cons.mpr ⟨rfl, hrest.isPrefix⟩, ⟨h, hrest.along⟩, ?_⟩
  intro other hp ho
  cases other with
  | nil => exact List.nil_prefix
  | cons b bs =>
    obtain ⟨rfl, hbs⟩ := List.cons_prefix_cons.mp hp
    exact List.cons_prefix_cons.mpr ⟨rfl, hrest.longest bs hbs ho.2⟩

/-- Under an invariant that the condition keeps, what is the same as the condition at
every step is the same along every run of allowed actions. -/
theorem Along.iff_of_invariant_on (Inv : σ → Prop) (A : α → Prop) {C P : σ → α → Prop}
    (hstep : ∀ s a, A a → Inv s → C s a → Inv (step s a))
    (hP : ∀ s a, A a → Inv s → (P s a ↔ C s a)) {s : σ} (h : Inv s) {as : List α}
    (has : ∀ a∈as, A a) : Along step P s as ↔ Along step C s as := by
  induction as generalizing s with
  | nil => exact Iff.rfl
  | cons a as ih =>
    obtain ⟨ha, has⟩ := List.forall_mem_cons.mp has
    constructor
    · intro h'
      obtain ⟨hp, hrest⟩ := h'
      have hc := (hP s a ha h).mp hp
      exact ⟨hc, (ih (hstep s a ha h hc) has).mp hrest⟩
    · intro h'
      obtain ⟨hc, hrest⟩ := h'
      exact ⟨(hP s a ha h).mpr hc, (ih (hstep s a ha h hc) has).mpr hrest⟩

theorem Along.iff_of_invariant (Inv : σ → Prop) {C P : σ → α → Prop}
    (hstep : ∀ s a, Inv s → C s a → Inv (step s a))
    (hP : ∀ s a, Inv s → (P s a ↔ C s a)) {s : σ} (h : Inv s) (as : List α) :
    Along step P s as ↔ Along step C s as :=
  Along.iff_of_invariant_on Inv (fun _ => True) (fun s a _ => hstep s a) (fun s a _ => hP s a) h
    fun _ _ => trivial

theorem outputs_sublist {β : Type*} {out out' : σ → α → List β}
    (h : ∀ s a, (out s a).Sublist (out' s a)) (s : σ) (as : List α) :
    (outputs step out s as).Sublist (outputs step out' s as) := by
  induction as generalizing s with
  | nil => exact List.Sublist.refl []
  | cons a as ih => exact (h s a).append (ih (step s a))

theorem outputs_congr {β : Type*} {out out' : σ → α → List β} {P : σ → α → Prop}
    (h : ∀ s a, P s a → out s a=out' s a) {s : σ} {as : List α} (hp : Along step P s as) :
    outputs step out s as=outputs step out' s as := by
  induction as generalizing s with
  | nil => rfl
  | cons a as ih => rw [outputs, outputs, h s a hp.1, ih hp.2]

theorem outputs_append {β : Type*} (out : σ → α → List β) (s : σ) (as bs : List α) :
    outputs step out s (as++bs)=outputs step out s as++outputs step out (exec step s as) bs := by
  induction as generalizing s with
  | nil => rfl
  | cons a as ih => simp only [List.cons_append, outputs, exec, ih, List.append_assoc]

/-- Actions that give nothing out and keep the states related can be left out of a run. -/
theorem outputs_purge {β : Type*} {out : σ → α → List β} (R : σ → σ → Prop) (A : α → Prop)
    (keep : α → Bool)
    (hkeep : ∀ s t a, A a → R s t → keep a=true → out s a=out t a ∧ R (step s a) (step t a))
    (hdrop : ∀ s t a, A a → R s t → keep a=false → out s a=[] ∧ R (step s a) t)
    {s t : σ} (h : R s t) {as : List α} (has : ∀ a∈as, A a) :
    outputs step out s as=outputs step out t (as.filter keep) := by
  induction as generalizing s t with
  | nil => rfl
  | cons a as ih =>
    obtain ⟨ha, has⟩ := List.forall_mem_cons.mp has
    cases hk : keep a with
    | true =>
      obtain ⟨hout, hnext⟩ := hkeep s t a ha h hk
      rw [List.filter_cons_of_pos hk, outputs, outputs, hout, ih hnext has]
    | false =>
      obtain ⟨hout, hnext⟩ := hdrop s t a ha h hk
      rw [List.filter_cons_of_neg (by simp [hk]), outputs, hout, List.nil_append, ih hnext has]

end Sovereign.Trace
