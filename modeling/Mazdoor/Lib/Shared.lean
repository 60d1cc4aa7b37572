/-
  Machines that share a part of their states.

  A machine is a partial step function; a `Part` of its state can be read and
  replaced.  A `Net` keeps one copy of that part for all machines, the rest of
  each machine's state, and the merged history of their logs.

  * `step`: one machine takes a step of its own on the shared copy;
  * `run_invariant`: an invariant of each machine that its own steps keep, and
    that the guarantee of the others' steps does not disturb, holds in every run;
  * `run_shared`: what each step preserves of the shared part and the history;
  * `run_charge`: what a machine's own actions add up to, whatever the others do;
  * `Preceded`: what every entry of a history has before it;
  * `run_owner`: a resource that a machine can only come to own while it is free
    has one owner in every run, and `exists_acquired`: a step of the run at which
    the owner took it;
  * `history_eq_log`: the history, seen by one machine, is its own log.
-/
import Mazdoor.Lib.Run
import Mathlib.Logic.Function.Basic
import Mathlib.Algebra.BigOperators.Group.List.Basic
import Mathlib.Algebra.GroupWithZero.Nat
import Mathlib.Data.List.Induction

namespace Shared

open Transition

/-- A part of a state. -/
structure Part (β σ : Type) where
  get : σ → β
  put : β → σ → σ
  get_put : ∀ b s, get (put b s) = b
  put_get : ∀ s, put (get s) s = s
  put_put : ∀ b c s, put b (put c s) = put b s

/-- A machine with a log. -/
structure Machine (β σ α ε : Type) extends Part β σ where
  next : σ → α → Option σ
  log : σ → List ε
  log_put : ∀ b s, log (put b s) = log s
  log_next : ∀ {s a s'}, next s a = some s' → log s <+: log s'

/-- The shared part, the machines, and the merged history of their logs. -/
structure Net (ι β σ ε : Type) where
  shared : β
  machine : ι → σ
  history : List (ι × ε)

variable {ι β σ α ε : Type} [DecidableEq ι] (M : Machine β σ α ε)

/-- What machine `i` sees: its own state with the shared part. -/
def view (n : Net ι β σ ε) (i : ι) : σ := M.put n.shared (n.machine i)

/-- What a step adds to the log. -/
def news (s s' : σ) : List ε := (M.log s').drop (M.log s).length

/-- Machine `x.1` takes the step `x.2`. -/
def step (n : Net ι β σ ε) (x : ι × α) : Option (Net ι β σ ε) :=
  (M.next (view M n x.1) x.2).map fun s' =>
    ⟨M.get s', Function.update n.machine x.1 s',
      n.history ++ (news M (view M n x.1) s').map (x.1, ·)⟩

/-- The actions of machine `i`. -/
def actionsOf (i : ι) (as : List (ι × α)) : List α :=
  as.filterMap fun x => if x.1 = i then some x.2 else none

/-- The events of machine `i` in a history. -/
def eventsOf (i : ι) (h : List (ι × ε)) : List ε :=
  h.filterMap fun x => if x.1 = i then some x.2 else none

theorem mem_eventsOf {i : ι} {e : ε} {h : List (ι × ε)} : e ∈ eventsOf i h ↔ (i, e) ∈ h := by
  rw [eventsOf, List.mem_filterMap]
  constructor
  · rintro ⟨⟨j, e'⟩, hh, hj⟩
    split_ifs at hj with hji
    obtain rfl := Option.some.inj hj
    exact hji ▸ hh
  · intro hh
    exact ⟨(i, e), hh, if_pos rfl⟩

/-- Every entry of a history is `P` to what precedes it. -/
def Preceded (P : List ε → ε → Prop) (h : List ε) : Prop := ∀ l₁ e l₂, h = l₁ ++ e :: l₂ → P l₁ e

theorem Preceded.append {P : List ε → ε → Prop} {h es : List ε} (hh : Preceded P h)
    (hes : ∀ l₁ e l₂, es = l₁ ++ e :: l₂ → P (h ++ l₁) e) : Preceded P (h ++ es) := by
  intro l₁ e l₂ heq
  rcases List.append_eq_append_iff.1 heq with ⟨m, rfl, hm⟩ | ⟨m, hm, hes'⟩
  · exact hes m e l₂ hm
  · cases m with
    | nil =>
      have h := hes [] e l₂ hes'.symm
      rwa [hm, List.append_nil, List.append_nil] at h
    | cons x m =>
      obtain ⟨rfl, -⟩ := List.cons.inj hes'
      exact hh l₁ e m hm

/-- One unit for each action that is counted. -/
theorem sum_eq_countP (p : α → Bool) (as : List α) :
    (as.map fun a => if p a then 1 else 0).sum = as.countP p := by
  induction as with
  | nil => rfl
  | cons a as ih => rw [List.map_cons, List.sum_cons, ih, List.countP_cons, Nat.add_comm]

section
variable {M} {n n' : Net ι β σ ε} {x : ι × α} {as : List (ι × α)} {i : ι}

omit [DecidableEq ι] in
theorem news_eq {s s' : σ} {es : List ε} (h : M.log s' = M.log s ++ es) : news M s s' = es := by
  rw [news, h, List.drop_left]

omit [DecidableEq ι] in
theorem log_eq_append_news {s s' : σ} {a : α} (h : M.next s a = some s') :
    M.log s' = M.log s ++ news M s s' := by
  obtain ⟨es, hes⟩ := M.log_next h
  rw [news_eq hes.symm, hes]

/-- A step of a net, by the step of its machine. -/
theorem step_cases (h : step M n x = some n') :
    ∃ s', M.next (view M n x.1) x.2 = some s' ∧ n'.shared = M.get s' ∧ view M n' x.1 = s' ∧
      (∀ j ≠ x.1, view M n' j = M.put n'.shared (view M n j)) ∧
      n'.history = n.history ++ (news M (view M n x.1) s').map (x.1, ·) := by
  obtain ⟨s', hs, rfl⟩ := Option.map_eq_some_iff.1 h
  refine ⟨s', hs, rfl, ?_, fun j hj => ?_, rfl⟩
  · simp only [view, Function.update_self, M.put_get]
  · simp only [view, Function.update_of_ne hj, M.put_put]

omit [DecidableEq ι] in
theorem get_view (n : Net ι β σ ε) (i : ι) : M.get (view M n i) = n.shared := M.get_put _ _

/-- **Rely and guarantee.**  An invariant of each machine that its own steps
    keep, and that a change within the guarantee `G` of the others does not
    disturb, holds for all machines after every run. -/
theorem run_invariant {J : ι → σ → Prop} {G : β → β → Prop}
    (own : ∀ i s a s', J i s → M.next s a = some s' → J i s' ∧ G (M.get s) (M.get s'))
    (stable : ∀ i s b, J i s → G (M.get s) b → J i (M.put b s))
    (h₀ : ∀ i, J i (view M n i)) (hr : run (step M) n as = some n') : ∀ i, J i (view M n' i) := by
  refine run_invariant' (I := fun n => ∀ i, J i (view M n i)) (fun n x n' h hs i => ?_) h₀ hr
  obtain ⟨s', hn, hb, hv, ho, -⟩ := step_cases hs
  obtain ⟨hJ, hG⟩ := own x.1 _ _ _ (h x.1) hn
  by_cases hi : i = x.1
  · rwa [hi, hv]
  · rw [ho i hi, hb]
    refine stable i _ _ (h i) ?_
    rwa [get_view] at hG ⊢

/-- An invariant of each machine that does not depend on the shared part. -/
theorem run_invariant_local {J : ι → σ → Prop}
    (own : ∀ i s a s', J i s → M.next s a = some s' → J i s')
    (stable : ∀ i s b, J i s → J i (M.put b s))
    (h₀ : ∀ i, J i (view M n i)) (hr : run (step M) n as = some n') : ∀ i, J i (view M n' i) :=
  run_invariant (G := fun _ _ => True) (fun i s a s' h hs => ⟨own i s a s' h hs, trivial⟩)
    (fun i s b h _ => stable i s b h) h₀ hr

/-- **Accounts.**  What every step of a machine keeps in step with the charges of
    its own actions stays so, whatever the other machines do. -/
theorem run_charge {γ : Type} [AddMonoid γ] {J : σ → γ → Prop} {f : α → γ} {c : γ}
    (own : ∀ s c a s', J s c → M.next s a = some s' → J s' (c + f a))
    (stable : ∀ s c b, J s c → J (M.put b s) c) (h₀ : J (view M n i) c)
    (hr : run (step M) n as = some n') :
    J (view M n' i) (c + ((actionsOf i as).map f).sum) := by
  induction as generalizing n c with
  | nil =>
    obtain rfl : n = n' := by simpa [run] using hr
    simpa [actionsOf] using h₀
  | cons x as ih =>
    obtain ⟨n₁, hs, hr⟩ := run_cons.1 hr
    obtain ⟨s', hn, -, hv, ho, -⟩ := step_cases hs
    by_cases hi : x.1 = i
    · have h₁ : J (view M n₁ i) (c + f x.2) := by
        subst hi
        rw [hv]
        exact own _ _ _ _ h₀ hn
      have h := ih h₁ hr
      rwa [actionsOf, List.filterMap_cons, if_pos hi, List.map_cons, List.sum_cons, ← add_assoc]
    · have h₁ : J (view M n₁ i) c := by
        rw [ho i (Ne.symm hi)]
        exact stable _ _ _ h₀
      have h := ih h₁ hr
      rwa [actionsOf, List.filterMap_cons, if_neg hi]

/-- The history, seen by machine `i`, is its log. -/
theorem history_eq_log (h₀ : eventsOf i n.history = M.log (n.machine i))
    (hr : run (step M) n as = some n') : eventsOf i n'.history = M.log (n'.machine i) := by
  have hview (n : Net ι β σ ε) : M.log (view M n i) = M.log (n.machine i) := M.log_put _ _
  rw [← hview] at h₀ ⊢
  refine run_invariant' (I := fun n => eventsOf i n.history = M.log (view M n i))
    (fun n x n' h hs => ?_) h₀ hr
  obtain ⟨s', hn, -, hv, ho, hh⟩ := step_cases hs
  rw [hh, eventsOf, List.filterMap_append, ← eventsOf, h]
  by_cases hi : i = x.1
  · subst hi
    have hall : ((fun y : ι × ε => if y.1 = x.1 then some y.2 else none) ∘ (x.1, ·)) = some := by
      funext e
      simp
    rw [hv, log_eq_append_news hn, List.filterMap_map, hall, List.filterMap_some]
  · have hnone : ((fun y : ι × ε => if y.1 = i then some y.2 else none) ∘ (x.1, ·)) =
        fun _ => none := by
      funext e
      simp [Ne.symm hi]
    rw [ho i hi, M.log_put, List.filterMap_map, hnone]
    simp

/-- **Shared part and history.**  A relation of the shared part to the merged
    history that every step of every machine keeps, in the presence of an
    invariant of that machine, holds after every run. -/
theorem run_shared {J : ι → σ → Prop} {G : β → β → Prop} {H : β → List (ι × ε) → Prop}
    (own : ∀ i s a s', J i s → M.next s a = some s' → J i s' ∧ G (M.get s) (M.get s'))
    (stable : ∀ i s b, J i s → G (M.get s) b → J i (M.put b s))
    (keep : ∀ i s a s' h, J i s → eventsOf i h = M.log s → H (M.get s) h →
      M.next s a = some s' → H (M.get s') (h ++ (news M s s').map (i, ·)))
    (h₀ : ∀ i, J i (view M n i)) (hl : ∀ i, eventsOf i n.history = M.log (n.machine i))
    (hH : H n.shared n.history) (hr : run (step M) n as = some n') :
    H n'.shared n'.history := by
  refine (run_invariant' (I := fun n => (∀ i, J i (view M n i)) ∧
    (∀ i, eventsOf i n.history = M.log (n.machine i)) ∧ H n.shared n.history)
    (fun n x n' h hs => ?_) ⟨h₀, hl, hH⟩ hr).2.2
  have hr : run (step M) n [x] = some n' := run_cons.2 ⟨n', hs, rfl⟩
  refine ⟨run_invariant own stable h.1 hr, fun i => history_eq_log (h.2.1 i) hr, ?_⟩
  obtain ⟨s', hn, hb, -, -, hh⟩ := step_cases hs
  rw [hb, hh]
  refine keep _ _ _ _ _ (h.1 x.1) ?_ ?_ hn
  · rw [h.2.1, view, M.log_put]
  · rw [get_view]
    exact h.2.2

/-- What only one machine has brought into a history is in its part of it. -/
theorem filterMap_eventsOf {δ : Type} (f : ε → Option δ) {h : List (ι × ε)}
    (hf : ∀ x ∈ h, f x.2 ≠ none → x.1 = i) :
    h.filterMap (fun x => f x.2) = (eventsOf i h).filterMap f := by
  rw [eventsOf, List.filterMap_filterMap]
  refine List.filterMap_congr fun x hx => ?_
  split_ifs with hi
  · rfl
  · rw [Option.bind_none]
    by_contra hne
    exact hi (hf x hx hne)

/-- **Ownership.**  A machine comes to own a resource only while nobody has
    taken it, and has taken it then; taken resources stay taken.  In every run a
    resource has at most one owner, and none that was taken before the run. -/
theorem run_owner {ρ : Type} {owns : σ → ρ → Prop} {taken : β → ρ → Prop}
    (acquire : ∀ s a s' r, M.next s a = some s' → owns s' r →
      owns s r ∨ ¬ taken (M.get s) r ∧ taken (M.get s') r)
    (mono : ∀ s a s' r, M.next s a = some s' → taken (M.get s) r → taken (M.get s') r)
    (put : ∀ b s r, owns (M.put b s) r → owns s r)
    (h₀ : ∀ i r, ¬ owns (view M n i) r) (hr : run (step M) n as = some n') :
    (∀ i r, owns (view M n' i) r → ¬ taken n.shared r) ∧
      ∀ i j r, owns (view M n' i) r → owns (view M n' j) r → i = j := by
  let I (n' : Net ι β σ ε) : Prop :=
    (∀ r, taken n.shared r → taken n'.shared r) ∧
    (∀ i r, owns (view M n' i) r → taken n'.shared r ∧ ¬ taken n.shared r) ∧
    ∀ i j r, owns (view M n' i) r → owns (view M n' j) r → i = j
  have hI : I n' := by
    refine run_invariant' (I := I) ?_ ⟨fun _ => id, fun i r h => absurd h (h₀ i r),
      fun i _ r h => absurd h (h₀ i r)⟩ hr
    rintro n₁ x n₂ ⟨hm, ht, hu⟩ hs
    obtain ⟨s', hn, hb, hv, ho, -⟩ := step_cases hs
    have mono' : ∀ r, taken n₁.shared r → taken n₂.shared r := fun r h => by
      rw [hb]
      refine mono _ _ _ r hn ?_
      rwa [get_view]
    -- who owns what after the step
    have owner : ∀ i r, owns (view M n₂ i) r →
        owns (view M n₁ i) r ∨ i = x.1 ∧ ¬ taken n₁.shared r ∧ taken n₂.shared r := by
      intro i r h
      by_cases hi : i = x.1
      · rw [hi, hv] at h
        rcases acquire _ _ _ r hn h with h | h
        · exact Or.inl (hi ▸ h)
        · rw [get_view, ← hb] at h
          exact Or.inr ⟨hi, h⟩
      · rw [ho i hi] at h
        exact Or.inl (put _ _ _ h)
    refine ⟨fun r h => mono' r (hm r h), fun i r h => ?_, fun i j r hi hj => ?_⟩
    · rcases owner i r h with h | ⟨-, hf, h⟩
      · exact ⟨mono' r (ht i r h).1, (ht i r h).2⟩
      · exact ⟨h, fun h => hf (hm r h)⟩
    · rcases owner i r hi with hi | ⟨rfl, hf, -⟩ <;> rcases owner j r hj with hj | ⟨rfl, hf', -⟩
      · exact hu i j r hi hj
      · exact absurd (ht i r hi).1 hf'
      · exact absurd (ht j r hj).1 hf
      · rfl
  exact ⟨fun i r h => (hI.2.1 i r h).2, hI.2.2⟩

/-- **Acquisition.**  What a machine owns after a run, it has come to own by a step
    that it took itself, and of which `F` tells how. -/
theorem exists_acquired {O : σ → Prop} {F : σ → α → σ → Prop}
    (acquire : ∀ s a s', M.next s a = some s' → O s' → O s ∨ F s a s')
    (put : ∀ b s, O (M.put b s) → O s) (h₀ : ¬ O (view M n i))
    (hr : run (step M) n as = some n') (h : O (view M n' i)) :
    ∃ as₁ a as₂ m m', as = as₁ ++ (i, a) :: as₂ ∧ run (step M) n as₁ = some m ∧
      step M m (i, a) = some m' ∧ F (view M m i) a (view M m' i) := by
  induction as using List.reverseRecOn generalizing n' with
  | nil =>
    obtain rfl : n = n' := by simpa [run] using hr
    exact absurd h h₀
  | append_singleton as x ih =>
    obtain ⟨m, hm, hx⟩ := run_append.1 hr
    obtain ⟨m', hs, hx⟩ := run_cons.1 hx
    obtain rfl : m' = n' := by simpa [run] using hx
    obtain ⟨s', hn, -, hv, ho, -⟩ := step_cases hs
    -- before the last step, the machine owns it already or the step brings it
    have before : O (view M m i) ∨ i = x.1 ∧ F (view M m i) x.2 (view M m' i) := by
      by_cases hi : i = x.1
      · subst hi
        rw [hv] at h ⊢
        exact (acquire _ _ _ hn h).imp id fun hf => ⟨rfl, hf⟩
      · rw [ho i hi] at h
        exact Or.inl (put _ _ h)
    rcases before with h | ⟨rfl, hf⟩
    · obtain ⟨as₁, a, as₂, m₁, m₂, rfl, hm₁, hs₁, hf⟩ := ih hm h
      exact ⟨as₁, a, as₂ ++ [x], m₁, m₂, by simp, hm₁, hs₁, hf⟩
    · exact ⟨as, x.2, [], m, m', rfl, hm, hs, hf⟩

end

end Shared
