/-
  Completions after `dispose`.

  Most continuations of the screens call `setState` without asking whether
  their `State` is still mounted.

  * `Task.host`: the `State` that a continuation will touch; `Event.touches`:
    the disposed `State` that an error names;
  * `token_after_back`: the token reply of an `EnterNumber` that the user left;
  * `DisposeCond` allows the disposal of a `State` that hosts no pending task,
    `HostInv` is the invariant, and `untouched_of_disposeCond` the run theorem:
    under the condition no disposed `State` is touched, and a disposal that
    breaks it can be followed by completions that touch one.
-/
import Mazdoor.Frame

namespace Mazdoor

open Transition

/-- The disposed `State` that was touched. -/
def Event.touches : Event → Option ℕ
  | .setStateAfterDispose k | .forwardAfterDispose k => some k
  | _ => none

/-! ## A run that touches a disposed state -/

/-- The user opens `EnterNumber` and goes back before the token arrives. -/
def leaveEnterNumber : List Action :=
  [.resume 0 .done, .openEnterNumber, .resume 0 .done, .back, .dispose 2, .resume 0 (.token "t")]

/-- **The claimed safety fails**: the token reply calls `setState` after `dispose`. -/
theorem token_after_back :
    ∃ s, run (step true) (App.launch [] ∅) leaveEnterNumber = some s ∧
      .setStateAfterDispose 2 ∈ s.log ∧ ¬ ∀ e ∈ s.log, e.touches = none := by
  refine ⟨_, rfl, ?_, ?_⟩ <;> decide

/-! ## The invariant -/

/-- A `State` is disposed only when it hosts no pending task. -/
def DisposeCond (s : App) : Action → Prop
  | .dispose k => ∀ t ∈ s.tasks, t.host ≠ some k
  | _ => True

instance (s : App) (a : Action) : Decidable (DisposeCond s a) := by
  induction a using Action.casesOn <;> dsimp only [DisposeCond] <;> infer_instance

/-- Routes and hosts are mounted, and no disposed `State` was touched. -/
structure HostInv (s : App) : Prop where
  stack : ∀ e ∈ s.stack, e ∈ s.mounted
  tasks : ∀ t ∈ s.tasks, ∀ k ∈ t.host, s.isMounted k
  log : ∀ e ∈ s.log, e.touches = none

theorem Event.touches_of_isShown {e : Event} (h : e.isShown) : e.touches = none := by
  cases e <;> simp_all [Event.isShown, Event.touches]

namespace App

theorem isMounted_of_mem {s : App} {sc : Screen} {k : ℕ} (h : ⟨sc, k⟩ ∈ s.mounted) :
    s.isMounted k :=
  isMounted_iff.2 ⟨_, h, rfl⟩

theorem host_of_mem_initTasks {k : ℕ} {sc : Screen} {t : Task} (h : t ∈ initTasks k sc) :
    ∀ k' ∈ t.host, k' = k := by
  cases sc <;> simp only [initTasks, List.not_mem_nil, List.mem_singleton] at h <;> subst h <;>
    simp [Task.host]

theorem Started.isMounted {s : App} {n : ℕ} {t : Task} (h : s.Started n t) :
    ∀ k ∈ t.host, s.isMounted k := by
  obtain ⟨hn, sc, hsc⟩ := h
  exact fun k hk => host_of_mem_initTasks hsc k hk ▸ hn

/-- A task spawns only tasks of its own host. -/
theorem host_of_spawns {s : App} {t t' : Task} {r : Reply} (h : t.Spawns s r t') :
    ∀ k ∈ t'.host, t.host = some k := by
  unfold Task.Spawns at h
  split at h
  all_goals try exact h.elim
  all_goals first
    | subst h; simp [Task.host]
    | (rcases h with rfl | rfl <;> simp [Task.host])
    | (obtain ⟨_, -, rfl⟩ := h; simp [Task.host])

theorem mem_pushReplacement_stack {s : App} {sc : Screen} {e : Element}
    (h : e ∈ (s.pushReplacement sc).stack) : e ∈ s.stack ∨ e ∈ (s.pushReplacement sc).mounted := by
  rw [pushReplacement_stack] at h
  rw [pushReplacement_mounted]
  cases hs : s.stack with
  | nil => simp [hs, Navigator.pushReplacement] at h
  | cons x st =>
    rw [hs, Navigator.pushReplacement, List.mem_cons] at h
    rcases h with rfl | h
    · simp
    · exact Or.inl (List.mem_cons_of_mem _ h)

section
variable {debug : Bool} {s s' : App} {t : Task} {r : Reply} {k : ℕ}

/-- A continuation touches no state but its host. -/
theorem Resumed.touches (h : Resumed debug s t r s') (hk : ∀ k ∈ t.host, s.isMounted k) :
    ∀ e ∈ s'.log, e ∈ s.log ∨ e.touches = none := by
  intro e
  -- an event that is added to a log
  have add {l : List Event} {e' : Event} (ih : e ∈ l → e ∈ s.log ∨ e.touches = none)
      (hn : e'.touches = none) : e ∈ l ++ [e'] → e ∈ s.log ∨ e.touches = none := fun he =>
    (List.mem_append.1 he).elim ih fun he => Or.inr (List.mem_singleton.1 he ▸ hn)
  induction h with
  | idle => exact Or.inl
  | setState hR k hkt _ ih | setImage hR k hkt _ ih =>
    intro he
    rcases List.mem_append.1 he with he | he
    · exact ih he
    · rw [stateError, if_pos (isMounted_mono hR.mounted (hk k hkt))] at he
      cases he
  | display _ _ hs ih =>
    rw [display_log]
    split
    · exact add ih (Event.touches_of_isShown hs)
    · rwa [List.append_nil]
  | emit _ hs ih => exact add ih (Event.touches_of_isShown hs)
  | forward hR k hkt hm => exact absurd (isMounted_mono hR.mounted (hk k hkt)) hm
  | issue _ _ _ _ _ ih => exact add ih rfl
  | _ => assumption

theorem Resumed.routes (h : Resumed debug s t r s') :
    ∀ e ∈ s'.stack, e ∈ s.stack ∨ e ∈ s'.mounted := by
  intro e
  induction h with
  | idle => exact Or.inl
  | pop _ _ ih => exact fun he => ih (List.mem_of_mem_tail he)
  | push _ _ _ _ ih =>
    intro he
    rcases List.mem_cons.1 he with rfl | he
    · exact Or.inr List.mem_cons_self
    · exact (ih he).imp id (List.mem_cons_of_mem _)
  | pushReplacement _ sc _ _ ih =>
    intro he
    rcases mem_pushReplacement_stack he with he | he
    · exact (ih he).imp id (mounted_pushReplacement _ sc ·)
    · exact Or.inr he
  | pushAndRemoveAll _ _ _ _ ih =>
    intro he
    rcases List.mem_cons.1 he with rfl | he
    · exact Or.inr List.mem_cons_self
    · exact (ih ((List.dropWhile_suffix _).subset he)).imp id (List.mem_cons_of_mem _)
  | _ => assumption

end
end App

section
variable {debug : Bool} {s s' : App} {a : Action} {k : ℕ}

theorem HostInv.launch (accounts : List Uid) (store : Store) :
    HostInv (App.launch accounts store) :=
  ⟨by simp, by simp [Task.host], by simp⟩

/-- A step that keeps the routes mounted and adds hosted tasks and harmless events. -/
theorem HostInv.extend (h : HostInv s) (hm : s.mounted ⊆ s'.mounted)
    (hst : ∀ e ∈ s'.stack, e ∈ s.stack ∨ e ∈ s'.mounted)
    (ht : ∀ t ∈ s'.tasks, t ∈ s.tasks ∨ ∀ k ∈ t.host, s'.isMounted k)
    (hl : ∀ e ∈ s'.log, e ∈ s.log ∨ e.touches = none) : HostInv s' := by
  refine ⟨fun e he => ?_, fun t hts k hk => ?_, fun e he => (hl e he).elim (h.log e) id⟩
  · exact (hst e he).elim (fun he => hm (h.stack e he)) id
  · exact (ht t hts).elim (fun ht => App.isMounted_mono hm (h.tasks t ht k hk)) (· k hk)

theorem host_of_isCallback {t : Task} (h : t.isCallback) : t.host = none := by
  cases t <;> simp only [Task.isCallback, reduceCtorEq] at h <;> rfl

/-- A tap starts tasks on the page on top and in the drawer. -/
theorem HostInv.tapped {t : Task} (h : HostInv s) (ht : a.Starts s t) :
    ∀ k ∈ t.host, s.isMounted k := by
  have top {e : Element} (he : s.stack.head? = some e) : s.isMounted e.key :=
    App.isMounted_iff.2 ⟨e, h.stack e (List.mem_of_mem_head? he), rfl⟩
  unfold Action.Starts at ht
  split at ht
  all_goals try simp only [Task.host, Option.mem_def, reduceCtorEq, IsEmpty.forall_iff, implies_true]
  case h_4 => rintro k' ⟨⟩; exact top ht
  case h_6 => rintro k' ⟨⟩; exact top ht.1
  case h_8 => rintro k' ⟨⟩; exact App.isMounted_of_mem ht.1
  exact ht.elim

/-- New tasks are hosted by mounted states. -/
theorem HostInv.fresh {t : Task} (h : HostInv s) (hf : s.Formed) (hm : s.mounted ⊆ s'.mounted)
    (ht : s.Fresh a s' t) : ∀ k ∈ t.host, s'.isMounted k := by
  cases ht with
  | spawned i r ha ht hsp =>
    exact fun k hk => App.isMounted_mono hm
      (h.tasks _ (List.mem_of_getElem? ht) k (App.host_of_spawns hsp k hk))
  | started ht => exact ht.isMounted
  | done j ha hw ht =>
    simp [host_of_isCallback ((hf _ (List.mem_of_getElem? hw)).callbacks t (Or.inl ht))]
  | error j ha hw ht =>
    simp [host_of_isCallback ((hf _ (List.mem_of_getElem? hw)).callbacks t (Or.inr ht))]
  | tapped ha ht => exact fun k hk => App.isMounted_mono hm (h.tapped ht k hk)
  | geocode hk hp => rintro k' ⟨⟩; exact hk

/-- **A step that meets the condition keeps the invariant.** -/
theorem HostInv.step (h : HostInv s) (hf : s.Formed) (hc : DisposeCond s a)
    (hs : Mazdoor.step debug s a = some s') : HostInv s' := by
  have extend (hm : s.mounted ⊆ s'.mounted)
      (hst : ∀ e ∈ s'.stack, e ∈ s.stack ∨ e ∈ s'.mounted)
      (hl : ∀ e ∈ s'.log, e ∈ s.log ∨ e.touches = none) : HostInv s' :=
    h.extend hm hst (fun t ht => (App.step_tasks hs t ht).imp id (h.fresh hf hm)) hl
  cases App.step_stepped hs with
  | tap ha ht =>
    refine extend ht.mounted ht.stack fun e he => ?_
    rcases ht.log with hl | hl <;> rw [hl] at he
    · exact Or.inl he
    · exact (List.mem_append.1 he).imp id fun he => by rw [List.mem_singleton.1 he]; rfl
  | relaunch => exact ⟨by simp, by simp [Task.host], h.log⟩
  | @dispose k hk =>
    refine ⟨fun e he => List.mem_filter.2 ⟨h.stack e he, ?_⟩, fun t ht k' hk' => ?_, h.log⟩
    · simpa using fun he' => hk (List.mem_map.2 ⟨e, he, he'⟩)
    · obtain ⟨e, he, rfl⟩ := App.isMounted_iff.1 (h.tasks t ht k' hk')
      refine App.isMounted_iff.2 ⟨e, List.mem_filter.2 ⟨he, ?_⟩, rfl⟩
      exact decide_eq_true fun he => hc t ht (he ▸ hk')
  | located | geocode =>
    refine extend (List.Subset.refl _) (fun _ => Or.inl) fun e he => ?_
    exact (List.mem_append.1 he).imp id fun he => by rw [List.mem_singleton.1 he]; rfl
  | @resume i r t _ ht hr =>
    have hk := h.tasks t (List.mem_of_getElem? ht)
    have hR : App.Resumed debug (s.dequeue i) t r s' := App.resume_resumed hr
    exact extend hR.mounted hR.routes (hR.touches hk)
  | commit hw =>
    refine extend (List.Subset.refl _) (fun _ => Or.inl) fun e he => ?_
    refine (List.mem_append.1 he).imp id fun he => ?_
    rcases List.mem_cons.1 he with rfl | he
    · rfl
    · obtain ⟨_, -, -, rfl⟩ := App.mem_creation he
      rfl
  | reject => exact extend (List.Subset.refl _) (fun _ => Or.inl) fun _ => Or.inl

/-! ## The condition is needed -/

theorem App.stateError_eq (hk : ¬ s.isMounted k) : s.stateError k = [.setStateAfterDispose k] :=
  if_neg hk

/-- With this reply a task touches its host. -/
def Task.lateReply : Task → Reply
  | .messagingToken _ => .token ""
  | .uploadPic _ _ | .drawerUpload _ _ => .url ""
  | .geocode _ _ => .placemarks []
  | _ => .done

theorem App.resume_late {t : Task} (hh : t.host = some k) (hm : t ≠ .messagingUserId k)
    (hk : ¬ s.isMounted k) :
    ∃ s', App.resume debug s t t.lateReply = some s' ∧ ∃ e ∈ s'.log, e.touches = some k := by
  have he := App.stateError_eq hk
  cases t <;> simp only [Task.host, Option.some.injEq, reduceCtorEq] at hh <;> subst hh
  case messagingUserId => exact absurd rfl hm
  case animation =>
    refine ⟨_, rfl, .forwardAfterDispose _, ?_, rfl⟩
    rw [if_neg hk]
    exact List.mem_append_right _ (List.mem_singleton_self _)
  all_goals
    refine ⟨_, rfl, .setStateAfterDispose _, ?_, rfl⟩
    simp [hk, he]

/-- A task whose host was disposed goes on to touch it. -/
theorem touches_of_host {t : Task} (ht : t ∈ s.tasks) (hh : t.host = some k)
    (hk : ¬ s.isMounted k) :
    ∃ more s', run (Mazdoor.step debug) s more = some s' ∧ ∃ e ∈ s'.log, e.touches = some k := by
  obtain ⟨i, hi⟩ := List.mem_iff_getElem?.1 ht
  by_cases hm : t = .messagingUserId k
  · -- the reply to `functionUserId()` first, then the token's
    subst hm
    obtain ⟨s', hs', he⟩ := @App.resume_late debug
      (((s.dequeue i).spawn (.messagingToken k)).dequeue (s.dequeue i).tasks.length) k
      (.messagingToken k) rfl (by simp) hk
    refine ⟨[.resume i .done, .resume (s.dequeue i).tasks.length (.token "")], s', ?_, he⟩
    refine run_cons.2 ⟨(s.dequeue i).spawn (.messagingToken k), ?_, run_cons.2 ⟨s', ?_, rfl⟩⟩
    · simp only [Mazdoor.step, hi]
      rfl
    · simp only [Mazdoor.step, App.spawn_tasks, List.getElem?_concat_length]
      exact hs'
  · obtain ⟨s', hs', he⟩ := @App.resume_late debug (s.dequeue i) k t hh hm hk
    refine ⟨[.resume i t.lateReply], s', run_cons.2 ⟨s', ?_, rfl⟩, he⟩
    simp only [Mazdoor.step, hi]
    exact hs'

theorem touches_of_not_disposeCond (hs : Mazdoor.step debug s a = some s')
    (hc : ¬ DisposeCond s a) :
    ∃ more t, run (Mazdoor.step debug) s' more = some t ∧ ∃ e ∈ t.log, e.touches ≠ none := by
  cases a with
  | dispose k =>
    simp only [DisposeCond, not_forall, not_not] at hc
    obtain ⟨t, ht, hh⟩ := hc
    simp only [Mazdoor.step] at hs
    split_ifs at hs
    obtain rfl := Option.some.inj hs
    have hk : ¬ (s.dispose k).isMounted k := by simp [App.isMounted]
    obtain ⟨more, s', hr, e, he, ht⟩ :=
      touches_of_host (s := s.dispose k) ht hh hk
    exact ⟨more, s', hr, e, he, by simp [ht]⟩
  | _ => exact absurd trivial hc

end

/-- **No completion after `dispose`.**  In a run whose disposals all meet
    `DisposeCond` no disposed `State` or controller is touched; after a
    disposal that does not meet it, some completions touch one. -/
theorem untouched_of_disposeCond {debug : Bool} {accounts : List Uid} {store : Store}
    {acts : List Action} {s : App}
    (hr : run (step debug) (App.launch accounts store) acts = some s) :
    (Along (step debug) DisposeCond (App.launch accounts store) acts →
      ∀ e ∈ s.log, e.touches = none) ∧
    ∀ a s', step debug s a = some s' → ¬ DisposeCond s a →
      ∃ more t, run (step debug) s' more = some t ∧ ∃ e ∈ t.log, e.touches ≠ none := by
  refine ⟨fun hc => ?_, fun a s' hs hC => touches_of_not_disposeCond hs hC⟩
  let I (s : App) : Prop := HostInv s ∧ s.Formed
  have h₀ : I (App.launch accounts store) := ⟨.launch _ _, App.formed_launch _ _⟩
  have hI : I s := run_invariant
    (fun _ _ _ h hC hs => ⟨h.1.step h.2 hC hs, h.2.step hs⟩) h₀ hc hr
  exact hI.1.log

/-- The token arrives before the user leaves `EnterNumber`. -/
def tokenThenBack : List Action :=
  [.resume 0 .done, .openEnterNumber, .resume 0 .done, .resume 0 (.token "t"), .back, .dispose 2]

theorem tokenThenBack_untouched :
    ∃ s, run (step true) (App.launch [] ∅) tokenThenBack = some s ∧
      s.mounted.map (·.screen) = [.signIn, .splashScreen] ∧ ∀ e ∈ s.log, e.touches = none :=
  ⟨_, rfl, by decide,
    (@untouched_of_disposeCond true [] ∅ tokenThenBack _ rfl).1 (by decide)⟩

end Mazdoor
