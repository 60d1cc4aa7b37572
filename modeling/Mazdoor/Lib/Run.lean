/-
  Runs of a partial step function.

  A system is a function `step : σ → α → Option σ`: `step s a` is the state
  after action `a`, and `none` if `a` is not enabled in `s`.

  * `run` takes a list of actions, one after the other;
  * `Along C` says that every action of a list meets the condition `C` in the
    state in which it is taken;
  * `run_invariant`: what every conditioned step preserves holds after every
    conditioned run; `run_simulation`: the same for the runs of two systems, whose
    actions are `Paired`;
  * `along_congr`: conditions that agree in every state of an invariant agree
    along every run; `forall_prefix_iff_along`: a condition that every step needs
    to keep a property is what every run needs to keep it.
-/
import Mathlib.Data.Option.Basic
import Mathlib.Data.List.Basic

namespace Transition

variable {σ α : Type*}

/-- The state reached by the actions of a list, if all of them are enabled. -/
def run (step : σ → α → Option σ) : σ → List α → Option σ
  | s, [] => some s
  | s, a :: as => (step s a).bind fun s' => run step s' as

/-- Every action of the list meets `C` in the state in which it is taken. -/
def Along (step : σ → α → Option σ) (C : σ → α → Prop) : σ → List α → Prop
  | _, [] => True
  | s, a :: as => C s a ∧
    match step s a with
    | some s' => Along step C s' as
    | none => True

instance Along.decidable (step : σ → α → Option σ) (C : σ → α → Prop)
    [∀ s a, Decidable (C s a)] : ∀ s as, Decidable (Along step C s as)
  | _, [] => inferInstanceAs (Decidable True)
  | s, a :: as =>
    match h : step s a with
    | some s' =>
      have := Along.decidable step C s' as
      decidable_of_iff (C s a ∧ Along step C s' as) (by simp [Along, h])
    | none => decidable_of_iff (C s a) (by simp [Along, h])

section
variable {step : σ → α → Option σ} {C : σ → α → Prop}

theorem run_cons {s t : σ} {a : α} {as : List α} :
    run step s (a :: as) = some t ↔ ∃ s', step s a = some s' ∧ run step s' as = some t := by
  simp [run, Option.bind_eq_some_iff]

theorem run_append {s t : σ} {as bs : List α} :
    run step s (as ++ bs) = some t ↔ ∃ s', run step s as = some s' ∧ run step s' bs = some t := by
  induction as generalizing s with
  | nil => simp [run]
  | cons a as ih =>
    rw [List.cons_append, run_cons]
    constructor
    · rintro ⟨s₁, h₁, h₂⟩
      obtain ⟨s₂, h₃, h₄⟩ := ih.1 h₂
      exact ⟨s₂, run_cons.2 ⟨s₁, h₁, h₃⟩, h₄⟩
    · rintro ⟨s₂, h₁, h₂⟩
      obtain ⟨s₁, h₃, h₄⟩ := run_cons.1 h₁
      exact ⟨s₁, h₃, ih.2 ⟨s₂, h₄, h₂⟩⟩

theorem Along.cons {s s' : σ} {a : α} {as : List α} (h : Along step C s (a :: as))
    (hs : step s a = some s') : C s a ∧ Along step C s' as := by
  simpa [Along, hs] using h

theorem Along.imp {D : σ → α → Prop} (hCD : ∀ s a, C s a → D s a) {s : σ} {as : List α}
    (h : Along step C s as) : Along step D s as := by
  induction as generalizing s with
  | nil => trivial
  | cons a as ih =>
    refine ⟨hCD s a h.1, ?_⟩
    split
    · rename_i s' hs
      exact ih (h.cons hs).2
    · trivial

theorem Along.append {s s' : σ} {as bs : List α} (h : Along step C s (as ++ bs))
    (hs : run step s as = some s') : Along step C s' bs := by
  induction as generalizing s with
  | nil =>
    obtain rfl : s = s' := by simpa [run] using hs
    exact h
  | cons a as ih =>
    obtain ⟨s₁, h₁, hs⟩ := run_cons.1 hs
    exact ih (h.cons h₁).2 hs

/-- **Invariants.**  What every conditioned step preserves holds after every
    conditioned run. -/
theorem run_invariant {I : σ → Prop}
    (hstep : ∀ s a s', I s → C s a → step s a = some s' → I s') {s t : σ} {as : List α}
    (h₀ : I s) (hc : Along step C s as) (hr : run step s as = some t) : I t := by
  induction as generalizing s with
  | nil =>
    obtain rfl : s = t := by simpa [run] using hr
    exact h₀
  | cons a as ih =>
    obtain ⟨s', hs, hr⟩ := run_cons.1 hr
    obtain ⟨hC, hc⟩ := hc.cons hs
    exact ih (hstep s a s' h₀ hC hs) hc hr

/-- What holds in every state of an invariant holds along every run. -/
theorem along_of_invariant {I : σ → Prop} (hstep : ∀ s a s', I s → step s a = some s' → I s')
    (hC : ∀ s a, I s → C s a) {s : σ} (h₀ : I s) (as : List α) : Along step C s as := by
  induction as generalizing s with
  | nil => trivial
  | cons a as ih =>
    refine ⟨hC s a h₀, ?_⟩
    split
    · rename_i s' hs
      exact ih (hstep s a s' h₀ hs)
    · trivial

/-- A condition on the actions alone. -/
theorem along_of_forall {D : α → Prop} {s : σ} {as : List α} (h : ∀ a ∈ as, D a) :
    Along step (fun _ a => D a) s as := by
  induction as generalizing s with
  | nil => trivial
  | cons a as ih =>
    obtain ⟨ha, h⟩ := List.forall_mem_cons.1 h
    refine ⟨ha, ?_⟩
    split
    · exact ih h
    · trivial

theorem along_true {s : σ} {as : List α} : Along step (fun _ _ => True) s as :=
  along_of_invariant (I := fun _ => True) (fun _ _ _ _ _ => trivial) (fun _ _ _ => trivial) trivial
    as

/-- An invariant that needs no condition. -/
theorem run_invariant' {I : σ → Prop} (hstep : ∀ s a s', I s → step s a = some s' → I s')
    {s t : σ} {as : List α} (h₀ : I s) (hr : run step s as = some t) : I t :=
  run_invariant (C := fun _ _ => True) (fun s a s' h _ hs => hstep s a s' h hs) h₀ along_true hr

theorem along_congr {I : σ → Prop} {D : σ → α → Prop}
    (hstep : ∀ s a s', I s → step s a = some s' → I s') (hCD : ∀ s a, I s → (C s a ↔ D s a))
    {s : σ} {as : List α} (h₀ : I s) : Along step C s as ↔ Along step D s as := by
  induction as generalizing s with
  | nil => rfl
  | cons a as ih =>
    refine and_congr (hCD s a h₀) ?_
    cases hs : step s a with
    | none => rfl
    | some s' => exact ih (hstep s a s' h₀ hs)

/-- **Exact conditions.**  If every step that meets the condition keeps the
    invariant, and a step that keeps `P` meets the condition, then `P` holds in
    every state of a run exactly when the run meets the condition. -/
theorem forall_prefix_iff_along {I P : σ → Prop} (hP : ∀ s, I s → P s)
    (hI : ∀ s a s', I s → C s a → step s a = some s' → I s')
    (hC : ∀ s a s', I s → step s a = some s' → P s' → C s a) {s t : σ} {as : List α}
    (h₀ : I s) (hr : run step s as = some t) :
    (∀ as' s', as' <+: as → run step s as' = some s' → P s') ↔ Along step C s as := by
  induction as generalizing s with
  | nil =>
    refine iff_of_true (fun as' s' hp hr' => ?_) trivial
    rw [List.prefix_nil.1 hp] at hr'
    exact Option.some.inj hr' ▸ hP s h₀
  | cons a as ih =>
    obtain ⟨s₁, hs, hr⟩ := run_cons.1 hr
    have ih := fun h₁ => ih h₁ hr
    constructor
    · intro h
      have hc : C s a := hC s a s₁ h₀ hs <|
        h [a] s₁ (List.prefix_cons_inj a |>.2 List.nil_prefix) (run_cons.2 ⟨s₁, hs, rfl⟩)
      refine ⟨hc, ?_⟩
      rw [hs]
      exact (ih (hI s a s₁ h₀ hc hs)).1 fun as' s' hp hr' =>
        h (a :: as') s' ((List.prefix_cons_inj a).2 hp) (run_cons.2 ⟨s₁, hs, hr'⟩)
    · intro hc as' s' hp hr'
      obtain ⟨hC, hc₁⟩ := hc.cons hs
      cases as' with
      | nil => exact Option.some.inj hr' ▸ hP s h₀
      | cons b as' =>
        obtain ⟨rfl, hp₁⟩ := List.cons_prefix_cons.1 hp
        obtain ⟨s₂, hs₂, hr₁⟩ := run_cons.1 hr'
        obtain rfl := Option.some.inj (hs.symm.trans hs₂)
        exact (ih (hI s b s₁ h₀ hC hs)).2 hc₁ as' s' hp₁ hr₁

/-- The actions of two lists are related one by one, in the states of the first run. -/
def Paired {β : Type*} (step : σ → α → Option σ) (Q : σ → α → β → Prop) : σ → List α → List β → Prop
  | _, [], [] => True
  | s, a :: as, b :: bs => Q s a b ∧
    match step s a with
    | some s' => Paired step Q s' as bs
    | none => True
  | _, _, _ => False

theorem Paired.cons {β : Type*} {Q : σ → α → β → Prop} {s s' : σ} {a : α} {as : List α} {b : β}
    {bs : List β} (h : Paired step Q s (a :: as) (b :: bs)) (hs : step s a = some s') :
    Q s a b ∧ Paired step Q s' as bs := by
  simpa [Paired, hs] using h

theorem Paired.refl {Q : σ → α → α → Prop} (h : ∀ s a, Q s a a) (s : σ) (as : List α) :
    Paired step Q s as as := by
  induction as generalizing s with
  | nil => trivial
  | cons a as ih =>
    refine ⟨h s a, ?_⟩
    split
    · exact ih _
    · trivial

/-- Actions that are related in every state. -/
theorem paired_of_forall₂ {β : Type*} {Q : α → β → Prop} {as : List α} {bs : List β}
    (h : List.Forall₂ Q as bs) (s : σ) : Paired step (fun _ => Q) s as bs := by
  induction h generalizing s with
  | nil => trivial
  | cons hab _ ih =>
    refine ⟨hab, ?_⟩
    split
    · exact ih _
    · trivial

/-- **Simulation.**  Two systems whose actions are paired stay related when every
    conditioned step of the first keeps them related. -/
theorem run_simulation {τ β : Type*} {step' : τ → β → Option τ} {R : σ → τ → Prop}
    {Q : σ → α → β → Prop}
    (hstep : ∀ s t a b s', R s t → C s a → Q s a b → step s a = some s' →
      ∃ t', step' t b = some t' ∧ R s' t')
    {s s' : σ} {t : τ} {as : List α} {bs : List β} (h₀ : R s t) (hc : Along step C s as)
    (hq : Paired step Q s as bs) (hr : run step s as = some s') :
    ∃ t', run step' t bs = some t' ∧ R s' t' := by
  induction as generalizing s t bs with
  | nil =>
    obtain rfl : s = s' := by simpa [run] using hr
    cases bs with
    | nil => exact ⟨t, rfl, h₀⟩
    | cons => exact hq.elim
  | cons a as ih =>
    cases bs with
    | nil => exact hq.elim
    | cons b bs =>
      obtain ⟨s₁, hs, hr⟩ := run_cons.1 hr
      obtain ⟨hC, hc⟩ := hc.cons hs
      obtain ⟨hab, hq⟩ := hq.cons hs
      obtain ⟨t₁, ht, hR⟩ := hstep _ _ _ _ _ h₀ hC hab hs
      obtain ⟨t', ht', hR⟩ := ih hR hc hq hr
      exact ⟨t', run_cons.2 ⟨t₁, ht, ht'⟩, hR⟩

end

end Transition
