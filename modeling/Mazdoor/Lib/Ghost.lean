/-
  Ghost state: what a proof remembers of a run beside the system's state.

  * `withGhost`: a system whose steps also update a ghost, which decides nothing;
  * `ghostAfter`: the ghost after a run;
  * `run_withGhost`, `run_of_withGhost`: the runs are those of the system;
  * `along_withGhost`: a condition that does not read the ghost is one on the
    system's own runs; `holds_iff_along_ghost`: the exact condition on a run, told
    by states and ghosts, for a property that no step mends.
-/
import Mazdoor.Lib.Run

namespace Transition

variable {σ α γ : Type*}

/-- A step of the system, and of the ghost from `s` to `s'`. -/
def withGhost (step : σ → α → Option σ) (upd : σ → σ → α → γ → γ) (x : σ × γ) (a : α) :
    Option (σ × γ) :=
  (step x.1 a).map fun s' => (s', upd x.1 s' a x.2)

/-- The ghost after a run. -/
def ghostAfter (step : σ → α → Option σ) (upd : σ → σ → α → γ → γ) : σ → γ → List α → γ
  | _, g, [] => g
  | s, g, a :: as =>
    match step s a with
    | some s' => ghostAfter step upd s' (upd s s' a g) as
    | none => g

section
variable {step : σ → α → Option σ} {upd : σ → σ → α → γ → γ} {s t : σ} {g : γ} {a : α} {as : List α}

theorem withGhost_eq_some {x y : σ × γ} :
    withGhost step upd x a = some y ↔ step x.1 a = some y.1 ∧ y.2 = upd x.1 y.1 a x.2 := by
  rw [withGhost, Option.map_eq_some_iff]
  constructor
  · rintro ⟨s', hs, rfl⟩
    exact ⟨hs, rfl⟩
  · rintro ⟨hs, hy⟩
    exact ⟨y.1, hs, Prod.ext rfl hy.symm⟩

/-- Every run of the system has its ghost. -/
theorem run_withGhost (h : run step s as = some t) :
    run (withGhost step upd) (s, g) as = some (t, ghostAfter step upd s g as) := by
  induction as generalizing s g with
  | nil =>
    obtain rfl : s = t := Option.some.inj h
    rfl
  | cons a as ih =>
    obtain ⟨s', hs, hr⟩ := run_cons.1 h
    refine run_cons.2 ⟨(s', upd s s' a g), withGhost_eq_some.2 ⟨hs, rfl⟩, ?_⟩
    rw [ih hr, ghostAfter, hs]

/-- The ghost decides nothing. -/
theorem run_of_withGhost {x y : σ × γ} (h : run (withGhost step upd) x as = some y) :
    run step x.1 as = some y.1 := by
  induction as generalizing x with
  | nil =>
    obtain rfl : x = y := Option.some.inj h
    rfl
  | cons a as ih =>
    obtain ⟨x', hs, hr⟩ := run_cons.1 h
    exact run_cons.2 ⟨x'.1, (withGhost_eq_some.1 hs).1, ih hr⟩

/-- A condition that does not read the ghost. -/
theorem along_withGhost {C : σ → α → Prop} {x : σ × γ} :
    Along (withGhost step upd) (fun x a => C x.1 a) x as ↔ Along step C x.1 as := by
  induction as generalizing x with
  | nil => rfl
  | cons a as ih =>
    refine and_congr Iff.rfl ?_
    cases hs : step x.1 a with
    | none => simp only [withGhost, hs, Option.map_none]
    | some s' =>
      simp only [withGhost, hs, Option.map_some]
      exact ih

/-- **Exact conditions** on what a proof remembers: `forall_prefix_iff_along` for
    a property that no step mends, so that the last state decides. -/
theorem holds_iff_along_ghost {C : σ × γ → α → Prop} {I : σ × γ → Prop} {P : σ → Prop}
    (hmono : ∀ s a s', step s a = some s' → P s' → P s) (hP : ∀ x, I x → P x.1)
    (hI : ∀ x a s', I x → C x a → step x.1 a = some s' → I (s', upd x.1 s' a x.2))
    (hC : ∀ x a s', I x → step x.1 a = some s' → P s' → C x a)
    (h₀ : I (s, g)) (hr : run step s as = some t) :
    P t ↔ Along (withGhost step upd) C (s, g) as := by
  rw [← forall_prefix_iff_along (I := I) (P := fun x => P x.1) hP
    (fun x a y hx hc hs => by
      obtain ⟨hs, hy⟩ := withGhost_eq_some.1 hs
      exact (Prod.ext rfl hy.symm : (y.1, upd x.1 y.1 a x.2) = y) ▸ hI x a y.1 hx hc hs)
    (fun x a y hx hs hp => hC x a y.1 hx (withGhost_eq_some.1 hs).1 hp) h₀ (run_withGhost hr)]
  constructor
  · rintro hp as' y ⟨bs, rfl⟩ hy
    obtain ⟨z, hz, hr⟩ := run_append.1 hr
    obtain rfl : z = y.1 := Option.some.inj (hz.symm.trans (run_of_withGhost hy))
    exact run_invariant' (I := fun u => P u → P y.1)
      (fun u a u' hu hs hp => hu (hmono u a u' hs hp)) id hr hp
  · exact fun hp => hp as _ List.prefix_rfl (run_withGhost hr)

end

end Transition
