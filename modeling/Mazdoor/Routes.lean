/-
  The last route of a navigator.

  Every navigation leaves a route on the stack but one: `signIn` of a returning
  account pops a route before it replaces the next one, and `Navigator` throws
  when there is none left to replace.

  * `RouteCond`: that continuation finds two routes, or its `State` is gone;
  * `step_stack_ne`: exactly then a step leaves a route;
  * `shown_iff_routeCond`: so all devices of a fleet show a page all the time if
    and only if every step meets the condition.
-/
import Mazdoor.Fleet

namespace Mazdoor

open Transition

/-- A returning account's `signIn` has a route to pop and one to replace. -/
def Task.routeCond (s : App) : Task → Reply → Prop
  | .signIn k _ false, .done => s.isMounted k → 2 ≤ s.stack.length
  | _, _ => True

instance (s : App) (t : Task) (r : Reply) : Decidable (t.routeCond s r) := by
  unfold Task.routeCond
  split <;> infer_instance

def RouteCond (s : App) : Action → Prop
  | .resume i r => ∀ t ∈ s.tasks[i]?, t.routeCond s r
  | _ => True

instance (s : App) (a : Action) : Decidable (RouteCond s a) := by
  unfold RouteCond
  split <;> infer_instance

section
variable {debug : Bool} {s s' : App} {t : Task} {r : Reply} {a : Action}

/-! ## Operations -/

theorem pushReplacement_stack_ne {sc : Screen} :
    (s.pushReplacement sc).stack ≠ [] ↔ s.stack ≠ [] := by
  rw [App.pushReplacement_stack]
  cases s.stack <;> simp [Navigator.pushReplacement]

theorem withContext_stack_ne {k : ℕ} {f : App → App} (hf : s.stack ≠ [] → (f s).stack ≠ [])
    (h : s.stack ≠ []) : (s.withContext k f).stack ≠ [] := by
  rcases App.withContext_cases s k f with ⟨-, hw⟩ | hw <;> rw [hw]
  · exact hf h
  · exact h

/-- `signIn` of a returning account. -/
theorem signIn_stack_ne {k : ℕ} (h : s.stack ≠ []) :
    (s.withContext k fun s => s.pop.pushReplacement .userLocation).stack ≠ [] ↔
      (s.isMounted k → 2 ≤ s.stack.length) := by
  unfold App.withContext
  split
  · next hk =>
    have hl : s.stack.tail ≠ [] ↔ 2 ≤ s.stack.length := by
      rw [← List.length_pos_iff, List.length_tail]
      omega
    rw [pushReplacement_stack_ne, App.pop_stack, Navigator.pop, hl]
    exact ⟨fun h _ => h, fun h => h hk⟩
  · next hk => exact iff_of_true h fun hk' => absurd hk' hk

/-- A continuation leaves a route, or is the `signIn` that finds one only. -/
theorem resume_stack_ne (h : s.stack ≠ []) (hr : App.resume debug s t r = some s') :
    s'.stack ≠ [] ↔ t.routeCond s r := by
  by_cases hsign : (∃ k uid, t = .signIn k uid false) ∧ r = .done
  · obtain ⟨⟨k, uid, rfl⟩, rfl⟩ := hsign
    obtain rfl := Option.some.inj hr
    exact signIn_stack_ne h
  have hc : t.routeCond s r := by
    unfold Task.routeCond
    split
    · exact absurd ⟨⟨_, _, rfl⟩, rfl⟩ hsign
    · trivial
  refine iff_of_true ?_ hc
  cases hn : t.navigates with
  | false => exact (App.resume_resumed hr).stack hn ▸ h
  | true =>
    cases t with
    | navigatePage k =>
      cases r <;> simp only [App.resume, Option.some.injEq, reduceCtorEq] at hr <;> subst hr
      · exact withContext_stack_ne (fun _ => List.cons_ne_nil _ _) h
      · exact h
    | verifyPhone k =>
      cases r <;> simp only [App.resume, Option.some.injEq, reduceCtorEq] at hr <;> subst hr
      · exact h
      · exact withContext_stack_ne (fun _ => List.cons_ne_nil _ _) h
      · exact h
    | done k d user =>
      cases user <;> cases r <;>
        simp only [App.resume, Option.some.injEq, reduceCtorEq] at hr <;> subst hr
      · exact h
      · exact h
      · exact withContext_stack_ne (fun _ => List.cons_ne_nil _ _) h
      · exact h
    | signIn k uid isNewUser =>
      cases isNewUser <;> cases r <;>
        simp only [App.resume, Option.some.injEq, reduceCtorEq] at hr <;> subst hr
      · exact absurd ⟨⟨k, uid, rfl⟩, rfl⟩ hsign
      · exact h
      · split
        · exact pushReplacement_stack_ne.2 h
        · exact h
      · exact h
    | facebook k uid isNewUser =>
      cases isNewUser <;> cases r <;>
        simp only [App.resume, Option.some.injEq, reduceCtorEq] at hr <;> subst hr
      · exact withContext_stack_ne pushReplacement_stack_ne.2 h
      · exact h
      · exact withContext_stack_ne pushReplacement_stack_ne.2 h
      · exact h
    | addPhoneNumberDone k startedBy | locationDone k startedBy =>
      cases r <;> simp only [App.resume, Option.some.injEq, reduceCtorEq] at hr <;> subst hr
      · exact withContext_stack_ne pushReplacement_stack_ne.2 h
      · exact h
    | _ => simp [Task.navigates] at hn

theorem tap_stack_ne (h : s.stack ≠ []) (ha : a.isTap) (hs : step debug s a = some s') :
    s'.stack ≠ [] := by
  cases App.tap_of_step ha hs with
  | back hl =>
    rw [App.pop_stack, Navigator.pop, ← List.length_pos_iff, List.length_tail]
    omega
  | spawnAll | create | openDrawer => exact h
  | openEnterNumber | openMap => exact List.cons_ne_nil _ _
  | signOut => exact List.cons_ne_nil _ _

/-- **A step** leaves a route exactly under the condition. -/
theorem step_stack_ne (h : s.stack ≠ []) (hs : step debug s a = some s') :
    s'.stack ≠ [] ↔ RouteCond s a := by
  cases App.step_stepped hs with
  | tap ha => exact iff_of_true (tap_stack_ne h ha hs) (by cases a <;> trivial)
  | relaunch => exact iff_of_true (List.cons_ne_nil _ _) trivial
  | dispose | located | geocode | commit | reject => exact iff_of_true h trivial
  | @resume i r t _ ht hr =>
    have hi : RouteCond s (.resume i r) ↔ t.routeCond (s.dequeue i) r := by
      rw [RouteCond, ht]
      simp only [Option.mem_def, Option.some.injEq, forall_eq']
      rfl
    exact (resume_stack_ne (s := s.dequeue i) h hr).trans hi.symm

end

/-! ## Runs of a fleet -/

section
variable {debug : Bool} {ι : Type} [DecidableEq ι] {accounts : List Uid} {store : Store}
  {as : List (ι × Action)} {n n' : Fleet ι}

namespace Fleet

/-- Every device shows a page. -/
def Shown (n : Fleet ι) : Prop := ∀ i, (n.app i).stack ≠ []

/-- The step of a device, in its own state. -/
def RouteCond (n : Fleet ι) (x : ι × Action) : Prop := Mazdoor.RouteCond (n.app x.1) x.2

instance (n : Fleet ι) (x : ι × Action) : Decidable (n.RouteCond x) :=
  inferInstanceAs (Decidable (Mazdoor.RouteCond (n.app x.1) x.2))

omit [DecidableEq ι] in
theorem Shown.launch : Shown (Fleet.launch accounts store : Fleet ι) :=
  fun _ => List.cons_ne_nil _ _

/-- The other devices keep their routes. -/
theorem shown_step {x : ι × Action} (h : n.Shown) (hs : step debug n x = some n') :
    n'.Shown ↔ n.RouteCond x := by
  obtain ⟨s', hn, -, hv, ho, -⟩ := Shared.step_cases hs
  have hx : (n'.app x.1).stack ≠ [] ↔ n.RouteCond x :=
    (congrArg (fun s : App => s.stack ≠ []) hv).to_iff.trans (step_stack_ne (h x.1) hn)
  refine ⟨fun h' => hx.1 (h' x.1), fun hc i => ?_⟩
  by_cases hi : i = x.1
  · exact hi ▸ hx.2 hc
  · have hv : n'.app i = (n.app i).on n'.shared := ho i hi
    exact hv ▸ h i

end Fleet

/-- **The last route.**  Every device shows a page in every state of a run if and
    only if every step meets the condition. -/
theorem shown_iff_routeCond
    (hr : run (Fleet.step debug) (Fleet.launch accounts store) as = some n) :
    (∀ as' n', as' <+: as →
      run (Fleet.step debug) (Fleet.launch accounts store) as' = some n' → n'.Shown) ↔
      Along (Fleet.step debug) Fleet.RouteCond (Fleet.launch accounts store) as :=
  forall_prefix_iff_along (fun _ h => h) (fun _ _ _ h hc hs => (Fleet.shown_step h hs).2 hc)
    (fun _ _ _ h hs hn => (Fleet.shown_step h hs).1 hn) Fleet.Shown.launch hr

/-- Two devices sign in to one account, whose number is verified. -/
def returningByPhone : List (ℕ × Action) :=
  [0, 1].flatMap fun i =>
    [.resume 0 .done, .openEnterNumber, .continuePhone, .resume 1 .verificationCompleted,
      .resume 2 .done, .resume 2 (.credential "A"), .resume 2 .done].map (i, ·)

theorem shown_returningByPhone :
    ∃ n : Fleet ℕ, run (Fleet.step true) (Fleet.launch ["A"] ∅) returningByPhone = some n ∧
      (∀ as' n', as' <+: returningByPhone →
        run (Fleet.step true) (Fleet.launch ["A"] ∅) as' = some n' → n'.Shown) ∧
      (n.app 1).stack.map Element.screen = [.userLocation] :=
  ⟨_, rfl, (@shown_iff_routeCond true ℕ _ ["A"] ∅ returningByPhone _ rfl).2 (by decide), rfl⟩

/-- Continue is pressed twice, and both verifications complete. -/
def continuedTwice : List Action :=
  [.resume 0 .done, .openEnterNumber, .continuePhone, .continuePhone,
    .resume 1 .verificationCompleted, .resume 1 .verificationCompleted, .resume 2 .done,
    .resume 3 .done, .resume 3 (.credential "A"), .resume 3 (.credential "A"), .resume 3 .done,
    .resume 3 .done]

example : (run (step true) (App.launch ["A"] ∅) continuedTwice).map App.stack = some [] := rfl

end

end Mazdoor
