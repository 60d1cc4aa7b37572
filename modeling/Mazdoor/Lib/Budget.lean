/-
  Weights of queues and potentials of states.

  * `sum_eraseIdx`: an entry that leaves a queue takes its weight with it;
    `sum_le_of_sublist`: fewer entries weigh no more;
  * `run_le`: a potential that every action lowers by its cost, up to what it
    gains, bounds the costs of a run.
-/
import Mathlib.Algebra.GroupWithZero.Nat
import Mathlib.Algebra.Order.BigOperators.Group.List
import Mathlib.Algebra.Order.Group.Nat
import Mazdoor.Lib.Run

namespace Budget

open Transition

variable {σ α τ : Type}

section
variable (w : τ → ℕ)

theorem sum_eraseIdx {l : List τ} {i : ℕ} {x : τ} (h : l[i]? = some x) :
    w x + ((l.eraseIdx i).map w).sum = (l.map w).sum := by
  obtain ⟨hi, rfl⟩ := List.getElem?_eq_some_iff.1 h
  have := ((List.getElem_cons_eraseIdx_perm hi).map w).sum_eq
  rwa [List.map_cons, List.sum_cons] at this

theorem sum_le_of_sublist {l m : List τ} (h : l.Sublist m) : (l.map w).sum ≤ (m.map w).sum :=
  (h.map w).sum_le_sum fun _ _ => Nat.zero_le _

end

/-- **Accounts of a run.**  A potential that each action lowers by its cost `c`, up
    to its gain `g`, pays for all costs of a run. -/
theorem run_le {step : σ → α → Option σ} {Φ : σ → ℕ} {c g : α → ℕ} {s t : σ} {as : List α}
    (h : ∀ s a s', step s a = some s' → Φ s' + c a ≤ Φ s + g a)
    (hr : run step s as = some t) :
    (as.map c).sum + Φ t ≤ Φ s + (as.map g).sum := by
  induction as generalizing s with
  | nil =>
    obtain rfl : s = t := by simpa [run] using hr
    simp
  | cons a as ih =>
    obtain ⟨s', hs, hr⟩ := run_cons.1 hr
    have h₁ := h s a s' hs
    have h₂ := ih hr
    simp only [List.map_cons, List.sum_cons]
    omega

end Budget
