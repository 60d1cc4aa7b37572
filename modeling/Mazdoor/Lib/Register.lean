/-
  Runs that follow an atomic register which only moves forward.

  `Follows O D r s as` says that the run of `as` from `s`, with the register at
  `r`, can be matched by moving the register forward, so that after every
  observed action the state is what `D` says of the register.  `follows` gives
  the register from an invariant that relates it to the state.
-/
import Mathlib.Order.Defs.PartialOrder
import Mazdoor.Lib.Run

namespace Register

open Transition

variable {σ α ι : Type*} [Preorder ι]

def Follows (step : σ → α → Option σ) (O : α → Prop) (D : σ → ι → Prop) : ι → σ → List α → Prop
  | _, _, [] => True
  | r, s, a :: as => ∀ s', step s a = some s' →
    ∃ r', r ≤ r' ∧ (O a → D s' r') ∧ Follows step O D r' s' as

/-- **Registers.**  If every conditioned step moves the register forward, to what
    the state then is, then so does every conditioned run. -/
theorem follows {step : σ → α → Option σ} {C : σ → α → Prop} {O : α → Prop} {D : σ → ι → Prop}
    {I : ι → σ → Prop}
    (hstep : ∀ r s a s', I r s → C s a → step s a = some s' →
      ∃ r', r ≤ r' ∧ (O a → D s' r') ∧ I r' s')
    {r : ι} {s : σ} {as : List α} (h₀ : I r s) (hc : Along step C s as) :
    Follows step O D r s as := by
  induction as generalizing r s with
  | nil => trivial
  | cons a as ih =>
    intro s' hs
    obtain ⟨hC, hc⟩ := hc.cons hs
    obtain ⟨r', hr, hD, hI⟩ := hstep r s a s' h₀ hC hs
    exact ⟨r', hr, hD, ih hI hc⟩

end Register
