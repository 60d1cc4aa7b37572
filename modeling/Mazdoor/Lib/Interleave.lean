/-
  Interleavings of finitely many processes over a shared state.

  A process advances from its own state and the shared one; a schedule is a list
  of indices, and every list is one interleaving.

  * `step_cases`: a step advances one process and leaves the others alone;
  * `map_set_eq`, `mem_set_of_ne`: what a step leaves as it was;
  * `run_alone`: a process that is scheduled alone;
  * `exists_run_all`: processes that can finish, whatever the others have done,
    can finish one after the other, and `exists_run_others` leaves one out.
-/
import Mathlib.Data.List.Nodup
import Mazdoor.Lib.Run

namespace Interleave

open Transition

/-- The shared state and the processes. -/
structure System (σ π : Type) where
  shared : σ
  procs : List π

variable {σ π ι : Type}

/-- Process `i` advances. -/
def step (advance : σ → π → Option (σ × π)) (s : System σ π) (i : ℕ) : Option (System σ π) :=
  match s.procs[i]? with
  | some p => (advance s.shared p).map fun (x, p') => ⟨x, s.procs.set i p'⟩
  | none => none

/-- `n` advances of one process. -/
def alone (advance : σ → π → Option (σ × π)) : ℕ → σ → π → Option (σ × π)
  | 0, x, p => some (x, p)
  | n + 1, x, p => (advance x p).bind fun (x', p') => alone advance n x' p'

section
variable {advance : σ → π → Option (σ × π)} {s s' : System σ π} {i : ℕ} {p p' : π} {x : σ}

theorem step_cases (h : step advance s i = some s') :
    ∃ p x p', s.procs[i]? = some p ∧ advance s.shared p = some (x, p') ∧
      s' = ⟨x, s.procs.set i p'⟩ := by
  unfold step at h
  split at h
  · rename_i p hp
    obtain ⟨⟨x, p'⟩, ha, rfl⟩ := Option.map_eq_some_iff.1 h
    exact ⟨p, x, p', hp, ha, rfl⟩
  · cases h

theorem step_of_advance (hp : s.procs[i]? = some p) (ha : advance s.shared p = some (x, p')) :
    step advance s i = some ⟨x, s.procs.set i p'⟩ := by
  simp only [step, hp, ha]
  rfl

theorem set_eq_self {l : List π} (h : l[i]? = some p) : l.set i p = l := by
  obtain ⟨hi, rfl⟩ := List.getElem?_eq_some_iff.1 h
  exact List.set_getElem_self hi

theorem map_set_eq (f : π → ι) (p' : π) {l : List π} (h : l[i]? = some p) (hf : f p' = f p) :
    (l.set i p').map f = l.map f := by
  rw [List.map_set, hf]
  refine set_eq_self ?_
  rw [List.getElem?_map, h]
  rfl

/-- A process that is not the one that advances stays. -/
theorem mem_set_of_ne {q : π} {l : List π} (h : l[i]? = some p) (hq : q ∈ l) (hne : q ≠ p) :
    q ∈ l.set i p' := by
  obtain ⟨k, hk⟩ := List.mem_iff_getElem?.1 hq
  have hik : i ≠ k := by
    rintro rfl
    exact hne (Option.some.inj (hk.symm.trans h))
  exact List.mem_iff_getElem?.2 ⟨k, (List.getElem?_set_ne hik).trans hk⟩

theorem run_alone {n : ℕ} (hp : s.procs[i]? = some p)
    (h : alone advance n s.shared p = some (x, p')) :
    run (step advance) s (List.replicate n i) = some ⟨x, s.procs.set i p'⟩ := by
  induction n generalizing s p with
  | zero =>
    obtain ⟨rfl, rfl⟩ := Option.some.inj h
    rw [set_eq_self hp]
    rfl
  | succ n ih =>
    obtain ⟨⟨y, q⟩, ha, hn⟩ := Option.bind_eq_some_iff.1 h
    refine run_cons.2 ⟨_, step_of_advance hp ha, ?_⟩
    rw [ih (List.getElem?_set_self (List.getElem?_eq_some_iff.1 hp).1) hn, List.set_set]

/-- **Schedules.**  Processes that can finish, whatever else has happened to the
    shared state, can finish one after the other. -/
theorem exists_run_all {I : σ → Prop} {P F : π → Prop}
    (hP : ∀ x p, I x → P p → ∃ n x' p', alone advance n x p = some (x', p') ∧ I x' ∧ F p')
    {is : List ℕ} (hn : is.Nodup) (hI : I s.shared)
    (his : ∀ i ∈ is, ∃ p, s.procs[i]? = some p ∧ P p) :
    ∃ as s', run (step advance) s as = some s' ∧ I s'.shared ∧
      (∀ k ∉ is, s'.procs[k]? = s.procs[k]?) ∧ ∀ i ∈ is, ∀ p ∈ s'.procs[i]?, F p := by
  induction is generalizing s with
  | nil => exact ⟨[], s, rfl, hI, fun _ _ => rfl, by simp⟩
  | cons i is ih =>
    obtain ⟨hi, hn⟩ := List.nodup_cons.1 hn
    obtain ⟨p, hp, hPp⟩ := his i List.mem_cons_self
    obtain ⟨n, x, p', ha, hx, hF⟩ := hP _ _ hI hPp
    have hset : ∀ k, k ≠ i → (s.procs.set i p')[k]? = s.procs[k]? := fun k hk =>
      List.getElem?_set_ne hk.symm
    obtain ⟨as, s', hr, hI', hk', hF'⟩ := ih (s := ⟨x, s.procs.set i p'⟩) hn hx fun k hk => by
      obtain ⟨q, hq, hPq⟩ := his k (List.mem_cons_of_mem _ hk)
      exact ⟨q, (hset k fun h => hi (h ▸ hk)).trans hq, hPq⟩
    refine ⟨_, s', run_append.2 ⟨_, run_alone hp ha, hr⟩, hI', ?_, ?_⟩
    · intro k hk
      rw [List.mem_cons, not_or] at hk
      exact (hk' k hk.2).trans (hset k hk.1)
    · intro k hk q hq
      rcases List.mem_cons.1 hk with rfl | hk
      · rw [hk' k hi, List.getElem?_set_self (List.getElem?_eq_some_iff.1 hp).1] at hq
        exact Option.some.inj hq ▸ hF
      · exact hF' k hk q hq

/-- All processes but one finish, before that one has begun. -/
theorem exists_run_others {I : σ → Prop} {P F : π → Prop}
    (hP : ∀ x p, I x → P p → ∃ n x' p', alone advance n x p = some (x', p') ∧ I x' ∧ F p')
    (hI : I s.shared) (hs : ∀ p ∈ s.procs, P p) (i : ℕ) :
    ∃ as s', run (step advance) s as = some s' ∧ I s'.shared ∧ s'.procs[i]? = s.procs[i]? ∧
      ∀ k ≠ i, ∀ p ∈ s'.procs[k]?, F p := by
  have hn : ((List.range s.procs.length).erase i).Nodup := List.nodup_range.erase i
  obtain ⟨as, s', hr, hI', hk, hF⟩ := exists_run_all hP hn hI fun k hk => by
    have hk := List.mem_range.1 (List.mem_of_mem_erase hk)
    exact ⟨_, List.getElem?_eq_getElem hk, hs _ (List.getElem_mem hk)⟩
  refine ⟨as, s', hr, hI', hk i List.nodup_range.not_mem_erase, fun k hki p hp => ?_⟩
  by_cases hks : k < s.procs.length
  · exact hF k (List.nodup_range.mem_erase_iff.2 ⟨hki, List.mem_range.2 hks⟩) p hp
  · rw [hk k fun h => hks (List.mem_range.1 (List.mem_of_mem_erase h)),
      List.getElem?_eq_none (Nat.not_lt.1 hks)] at hp
    cases hp

end

end Interleave
