/-
  The route stack of a navigator, top first.

  * `push`, `pop`, `pushReplacement` and `pushAndRemoveUntil` act on the stack;
    replacing the top of an empty stack throws and leaves it empty;
  * `Separated p q` says that a stack with a `p`-route has no `q`-route.
-/
import Mathlib.Data.List.TakeWhile

namespace Navigator

variable {ρ : Type*}

def push (r : ρ) (st : List ρ) : List ρ := r :: st

def pop (st : List ρ) : List ρ := st.tail

/-- Replace the top route. -/
def pushReplacement (r : ρ) : List ρ → List ρ
  | [] => []
  | _ :: st => r :: st

/-- Push `r` and remove the routes below it down to the first that `keep` accepts. -/
def pushAndRemoveUntil (r : ρ) (keep : ρ → Bool) (st : List ρ) : List ρ :=
  r :: st.dropWhile fun x => !keep x

@[simp]
theorem pushAndRemoveUntil_none (r : ρ) (st : List ρ) :
    pushAndRemoveUntil r (fun _ => false) st = [r] :=
  congrArg (r :: ·) (List.dropWhile_eq_nil_iff.2 fun _ _ => rfl)

theorem pushReplacement_of_ne {st : List ρ} (h : st ≠ []) (r : ρ) :
    pushReplacement r st = r :: st.tail := by
  cases st with
  | nil => exact absurd rfl h
  | cons x st => rfl

theorem mem_pushReplacement {r x : ρ} {st : List ρ} (h : x ∈ pushReplacement r st) :
    x = r ∨ x ∈ st.tail := by
  cases st with
  | nil => simp [pushReplacement] at h
  | cons y st => simpa [pushReplacement] using h

/-- A stack with a `p`-route has no `q`-route. -/
def Separated (p q : ρ → Prop) (st : List ρ) : Prop :=
  (∃ x ∈ st, p x) → ∀ y ∈ st, ¬ q y

section
variable {p q : ρ → Prop} {r : ρ}

theorem separated_singleton (h : p r → ¬ q r) : Separated p q [r] := by
  rintro ⟨x, hx, hp⟩ y hy
  rw [List.mem_singleton] at hx hy
  subst hx; subst hy
  exact h hp

end

end Navigator
