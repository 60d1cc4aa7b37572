/-
  The logged-out and the logged-in part of the navigation stack.

  * `Screen.isLogin`, `Screen.isPostLogin`: the two parts; `Unmixed` says that
    a stack does not have routes of both;
  * `registration_over_login`: the phone sign-in of a first-time account replaces the OTP
    dialog only, so that `SignIn` and `EnterNumber` stay under `Registration`;
  * `NavCond` is the condition under which a step keeps the parts apart, and
    `unmixed_of_navCond` the run theorem: the stack is then the splash screen
    alone, all logged-out or all logged-in (`NavInv`).
-/
import Mazdoor.Frame

namespace Mazdoor

open Transition

/-- No post-login route shares the stack with `SignIn`, `EnterNumber` or the OTP dialog. -/
def Unmixed (s : App) : Prop :=
  Navigator.Separated (·.screen.isPostLogin) (·.screen.isLogin) s.stack

instance (s : App) : Decidable (Unmixed s) :=
  inferInstanceAs (Decidable ((∃ x ∈ s.stack, x.screen.isPostLogin) →
    ∀ y ∈ s.stack, ¬ y.screen.isLogin))

/-- The number of login routes on the stack. -/
def App.loginDepth (s : App) : ℕ := s.stack.countP (·.screen.isLogin)

/-- The tasks that end at the navigator, and the number of login routes that
    each of them removes from the stack. -/
def Task.replaces : Task → ℕ
  | .signIn _ _ false => 2
  | _ => 1

/-- The key of the context with which a task leaves the login screens. -/
def Task.entersWith : Task → Option ℕ
  | .done _ d (some _) => some d
  | .signIn k _ _ | .facebook k _ _ | .addPhoneNumberDone k _ | .locationDone k _ => some k
  | _ => none

/-- The condition of a step: a live continuation enters a post-login route only
    when it removes every login route on the stack, and the OTP dialog does not
    open over a post-login route. -/
def Task.navCond (s : App) : Task → Reply → Prop
  | .verifyPhone k, .codeSent => s.isMounted k → ∀ e ∈ s.stack, ¬ e.screen.isPostLogin
  | t, .done => ∀ k ∈ t.entersWith, s.isMounted k → s.loginDepth ≤ t.replaces
  | _, _ => True

instance (s : App) (t : Task) (r : Reply) : Decidable (t.navCond s r) := by
  induction t using Task.casesOn <;> induction r using Reply.casesOn <;>
    dsimp only [Task.navCond] <;> infer_instance

def NavCond (s : App) : Action → Prop
  | .resume i r => ∀ t ∈ s.tasks[i]?, t.navCond s r
  | _ => True

instance (s : App) (a : Action) : Decidable (NavCond s a) := by
  induction a using Action.casesOn <;> dsimp only [NavCond] <;> infer_instance

/-! ## A run that mixes the two parts -/

/-- A first-time phone sign-in with the code typed into the dialog. -/
def phoneRegistration : List Action :=
  [.resume 0 .done, .openEnterNumber, .continuePhone, .resume 1 .codeSent, .doneOTP,
    .resume 2 .done, .resume 2 .done, .resume 2 .done, .resume 2 (.credential "A"),
    .resume 2 .done]

/-- **The claimed separation fails**: `Registration` lies over `EnterNumber` and `SignIn`. -/
theorem registration_over_login :
    ∃ s, run (step false) (App.launch [] ∅) phoneRegistration = some s ∧
      s.stack.map (·.screen) = [.userProfile, .enterNumber, .signIn] ∧ ¬ Unmixed s := by
  refine ⟨_, rfl, ?_, ?_⟩ <;> decide

/-! ## The invariant -/

namespace App

/-- Only the splash screen is running. -/
structure AtLaunch (s : App) : Prop where
  stack : ∃ k, s.stack = [⟨.splashScreen, k⟩]
  tasks : ∀ t ∈ s.tasks, ∃ k, t = .navigatePage k
  mounted : ∀ e ∈ s.mounted, e.screen = .splashScreen
  pending : ∀ w ∈ s.pending, w.onDone = none ∧ w.onError = none

/-- The stack has routes of one part only. -/
def OnePart (s : App) : Prop :=
  (∀ e ∈ s.stack, e.screen.isLogin) ∨ ∀ e ∈ s.stack, e.screen.isPostLogin

theorem OnePart.of_subset {s s' : App} (h : s.OnePart) (hs : s'.stack ⊆ s.stack) : s'.OnePart :=
  h.imp (fun h e he => h e (hs he)) fun h e he => h e (hs he)

theorem OnePart.unmixed {s : App} (h : s.OnePart) : Unmixed s := by
  rintro ⟨x, hx, hp⟩ y hy hl
  rcases h with h | h
  · have := h x hx
    revert this hp; cases x.screen <;> simp [Screen.isLogin, Screen.isPostLogin]
  · have := h y hy
    revert this hl; cases y.screen <;> simp [Screen.isLogin, Screen.isPostLogin]

/-- A post-login route entered over what is left after `n` routes are removed. -/
theorem OnePart.enter {s s' : App} {e : Element} {n : ℕ} (h : s.OnePart)
    (he : e.screen.isPostLogin) (hn : s.loginDepth ≤ n) (hs : s'.stack = e :: s.stack.drop n) :
    s'.OnePart := by
  refine Or.inr fun x hx => ?_
  rw [hs, List.mem_cons] at hx
  rcases hx with rfl | hx
  · exact he
  rcases h with h | h
  · have : s.loginDepth = s.stack.length := List.countP_eq_length.2 fun y hy => h y hy
    rw [List.drop_eq_nil_of_le (by omega)] at hx
    simp at hx
  · exact h x (List.mem_of_mem_drop hx)

end App

namespace App

theorem OnePart.replace {s s' : App} {sc : Screen} (h : s.OnePart) (hs : s'.stack = s.stack)
    (hsc : sc.isPostLogin) (hn : s.loginDepth ≤ 1) : (s'.pushReplacement sc).OnePart := by
  cases hst : s.stack with
  | nil =>
    refine h.of_subset ?_
    rw [pushReplacement_stack, hs, hst]
    exact List.Subset.refl _
  | cons e st =>
    refine h.enter (e := ⟨sc, s'.nextKey⟩) hsc hn ?_
    rw [pushReplacement_stack, hs, hst]
    rfl

theorem onePart_navigatePage (s : App) :
    (s.pushAndRemoveAll (if s.auth.isSome then .dashBoard else .signIn)).OnePart := by
  split
  · exact Or.inr (by simp [Screen.isPostLogin])
  · exact Or.inl (by simp [Screen.isLogin])

theorem OnePart.replaceIn {s s' : App} {sc : Screen} {k : ℕ} (h : s.OnePart)
    (hs : s'.stack = s.stack) (hsc : sc.isPostLogin) (hn : s'.isMounted k → s.loginDepth ≤ 1) :
    (s'.withContext k (·.pushReplacement sc)).OnePart := by
  rcases withContext_cases s' k (·.pushReplacement sc) with ⟨hk, hw⟩ | hw <;> rw [hw]
  · exact h.replace hs hsc (hn hk)
  · exact h.of_subset (hs ▸ List.Subset.refl _)

theorem OnePart.popReplace {s : App} {sc : Screen} (h : s.OnePart) (hsc : sc.isPostLogin)
    (hn : s.loginDepth ≤ 2) : (s.pop.pushReplacement sc).OnePart := by
  have hst := pushReplacement_stack s.pop sc
  cases hs : s.stack.tail with
  | nil =>
    refine h.of_subset ?_
    rw [hst, pop_stack, Navigator.pop, hs]
    exact List.nil_subset _
  | cons e st =>
    refine h.enter (e := ⟨sc, s.nextKey⟩) hsc hn ?_
    rw [hst, pop_stack, Navigator.pop, ← List.tail_drop, List.drop_one, hs]
    rfl

/-- The continuations that enter a post-login route. -/
theorem OnePart.resume {debug : Bool} {s s' : App} {t : Task} {r : Reply} (h : s.OnePart)
    (hc : t.navCond s r) (hr : App.resume debug s t r = some s') : s'.OnePart := by
  cases hn : t.navigates with
  | false => exact h.of_subset ((resume_resumed hr).stack hn ▸ List.Subset.refl _)
  | true =>
    cases t with
    | navigatePage k =>
      cases r <;> simp only [App.resume, Option.some.injEq, reduceCtorEq] at hr <;> subst hr
      · rcases withContext_cases s k fun s =>
          s.pushAndRemoveAll (if s.auth.isSome then .dashBoard else .signIn)
          with ⟨-, hw⟩ | hw <;> rw [hw]
        · exact onePart_navigatePage s
        · exact h
      · exact h
    | verifyPhone k =>
      cases r <;> simp only [App.resume, Option.some.injEq, reduceCtorEq] at hr <;> subst hr
      · exact h
      · rcases withContext_cases (s.spawn (.verifyPhone k)) k (·.push (.smsOTPDialog k))
          with ⟨hk, hw⟩ | hw <;> rw [hw]
        · refine Or.inl fun e he => ?_
          rcases List.mem_cons.1 he with rfl | he
          · rfl
          · exact h.resolve_right (fun hp => hc hk e he (hp e he)) e he
        · exact h
      · exact h
    | done k d user =>
      cases user <;> cases r <;>
        simp only [App.resume, Option.some.injEq, reduceCtorEq] at hr <;> subst hr
      · exact h
      · exact h
      · rcases withContext_cases s d fun s => s.pop.push .dashBoard with ⟨hd, hw⟩ | hw <;> rw [hw]
        · refine h.enter (e := ⟨.dashBoard, s.nextKey⟩) rfl (hc d rfl hd) ?_
          change _ = _ :: s.stack.drop 1
          rw [List.drop_one]
          rfl
        · exact h
      · exact h
    | signIn k uid isNewUser =>
      cases isNewUser <;> cases r <;>
        simp only [App.resume, Option.some.injEq, reduceCtorEq] at hr <;> subst hr
      · rcases withContext_cases s k fun s => s.pop.pushReplacement .userLocation
          with ⟨hk, hw⟩ | hw <;> rw [hw]
        · exact h.popReplace rfl (hc k rfl hk)
        · exact h
      · exact h
      · split
        · exact h.replace rfl rfl (hc k rfl ‹_›)
        · exact h
      · exact h
    | facebook k uid isNewUser =>
      cases isNewUser <;> cases r <;>
        simp only [App.resume, Option.some.injEq, reduceCtorEq] at hr <;> subst hr
      · exact h.replaceIn rfl rfl (hc k rfl)
      · exact h
      · exact h.replaceIn rfl rfl (hc k rfl)
      · exact h
    | addPhoneNumberDone k startedBy | locationDone k startedBy =>
      cases r <;> simp only [App.resume, Option.some.injEq, reduceCtorEq] at hr <;> subst hr
      · exact h.replaceIn rfl rfl (hc k rfl)
      · exact h
    | _ => simp [Task.navigates] at hn

/-- From the splash screen alone, only `navigatePage` goes on. -/
theorem AtLaunch.resume {debug : Bool} {s s' : App} {k : ℕ} {r : Reply} (h : s.AtLaunch)
    (hr : App.resume debug s (.navigatePage k) r = some s') : s'.AtLaunch ∨ s'.OnePart := by
  cases r <;> simp only [App.resume, Option.some.injEq, reduceCtorEq] at hr <;> subst hr
  · rcases withContext_cases s k fun s =>
      s.pushAndRemoveAll (if s.auth.isSome then .dashBoard else .signIn)
      with ⟨-, hw⟩ | hw <;> rw [hw]
    · exact Or.inr (onePart_navigatePage s)
    · exact Or.inl h
  · exact Or.inl h

end App

/-- The invariant: the splash screen alone, or routes of one part. -/
def NavInv (s : App) : Prop := s.AtLaunch ∨ s.OnePart

theorem NavInv.launch (accounts : List Uid) (store : Store) : NavInv (App.launch accounts store) :=
  Or.inl ⟨⟨0, rfl⟩, by simp, by simp, by simp⟩

theorem NavInv.onePart {s : App} {sc : Screen} {k : ℕ} {st : List Element} (h : NavInv s)
    (hst : s.stack = ⟨sc, k⟩ :: st) (hsc : sc ≠ .splashScreen) : s.OnePart := by
  refine h.resolve_left fun hl => ?_
  obtain ⟨j, hj⟩ := hl.stack
  rw [hst, List.cons.injEq, Element.mk.injEq] at hj
  exact hsc hj.1.1

theorem App.OnePart.isLogin {s : App} {sc : Screen} {k : ℕ} {st : List Element} (h : s.OnePart)
    (hst : s.stack = ⟨sc, k⟩ :: st) (hsc : sc.isPostLogin = false) :
    ∀ e ∈ s.stack, e.screen.isLogin := by
  refine h.resolve_right fun hp => ?_
  have := hp ⟨sc, k⟩ (hst ▸ List.mem_cons_self)
  rw [hsc] at this
  cases this

theorem App.OnePart.isPostLogin {s : App} {sc : Screen} {k : ℕ} {st : List Element}
    (h : s.OnePart) (hst : s.stack = ⟨sc, k⟩ :: st) (hsc : sc.isLogin = false) :
    ∀ e ∈ s.stack, e.screen.isPostLogin := by
  refine h.resolve_left fun hl => ?_
  have := hl ⟨sc, k⟩ (hst ▸ List.mem_cons_self)
  rw [hsc] at this
  cases this

/-- A tap that leaves the stack as it is. -/
theorem NavInv.tap {s s' : App} {sc : Screen} {k : ℕ} {st : List Element} (h : NavInv s)
    (hst : s.stack = ⟨sc, k⟩ :: st) (hsc : sc ≠ .splashScreen) (hs : s'.stack = s.stack) :
    NavInv s' :=
  Or.inr ((h.onePart hst hsc).of_subset (hs ▸ List.Subset.refl _))

/-- A tap stays within its part; signing out returns to the login part. -/
theorem NavInv.tapped {debug : Bool} {s s' : App} {a : Action} (h : NavInv s) (ha : a.isTap)
    (hs : step debug s a = some s') : NavInv s' := by
  cases App.tap_of_step ha hs with
  | back hl =>
    rcases h with h | h
    · obtain ⟨k, hk⟩ := h.stack
      simp [hk] at hl
    · exact Or.inr (h.of_subset (List.tail_sublist _).subset)
  | spawnAll hst he | create hst he => exact h.tap hst he rfl
  | openDrawer hst => exact h.tap hst (by simp) rfl
  | openEnterNumber hst =>
    refine Or.inr (Or.inl fun e he => ?_)
    rcases List.mem_cons.1 he with rfl | he
    · rfl
    · exact (h.onePart hst (by simp)).isLogin hst rfl e he
  | openMap hst =>
    refine Or.inr (Or.inr fun e he => ?_)
    rcases List.mem_cons.1 he with rfl | he
    · rfl
    · exact (h.onePart hst (by simp)).isPostLogin hst rfl e he
  | signOut => exact Or.inr (Or.inl (by simp [Screen.isLogin]))

/-- **A step that meets the condition keeps the two parts apart.** -/
theorem NavInv.step {debug : Bool} {s s' : App} {a : Action} (h : NavInv s) (hc : NavCond s a)
    (hs : Mazdoor.step debug s a = some s') : NavInv s' := by
  cases App.step_stepped hs with
  | tap ha => exact h.tapped ha hs
  | relaunch => exact Or.inl ⟨⟨s.nextKey, rfl⟩, by simp, by simp, by simp⟩
  | dispose =>
    refine h.imp (fun h => ⟨h.stack, h.tasks, fun e he => ?_, h.pending⟩) id
    exact h.mounted e (List.mem_of_mem_filter he)
  | located => exact h.imp (fun h => ⟨h.stack, h.tasks, h.mounted, h.pending⟩) id
  | geocode _ hk =>
    refine Or.inr (h.resolve_left fun h => ?_)
    cases h.mounted _ hk
  | @resume i r t _ ht hr =>
    rcases h with h | h
    · obtain ⟨k, rfl⟩ := h.tasks t (List.mem_of_getElem? ht)
      have h' : App.AtLaunch (s.dequeue i) :=
        ⟨h.stack, fun t ht => h.tasks t (List.mem_of_mem_eraseIdx ht), h.mounted, h.pending⟩
      exact h'.resume hr
    · exact Or.inr (App.OnePart.resume (s := s.dequeue i) h (hc t ht) hr)
  | commit hw =>
    refine h.imp (fun h => ⟨h.stack, ?_, h.mounted, fun w hw => ?_⟩) id
    · simpa [(h.pending _ (List.mem_of_getElem? hw)).1] using h.tasks
    · exact h.pending w (List.mem_of_mem_eraseIdx hw)
  | reject hw =>
    refine h.imp (fun h => ⟨h.stack, ?_, h.mounted, fun w hw => ?_⟩) id
    · simpa [(h.pending _ (List.mem_of_getElem? hw)).2] using h.tasks
    · exact h.pending w (List.mem_of_mem_eraseIdx hw)

theorem NavInv.unmixed {s : App} (h : NavInv s) : Unmixed s := by
  rcases h with h | h
  · obtain ⟨k, hk⟩ := h.stack
    rw [Unmixed, hk]
    exact Navigator.separated_singleton (by simp [Screen.isPostLogin])
  · exact h.unmixed

theorem signOut_stack {debug : Bool} {s s' : App} (h : step debug s .signOut = some s') :
    ∀ e ∈ s'.stack, e.screen = .signIn := by
  simp only [step] at h
  obtain ⟨k, st, -, rfl⟩ := App.onTop_eq_some h
  simp

/-- **Separation of the two parts.**  In every state of a run whose steps meet
    `NavCond` no post-login route shares the stack with a login route, and
    after a sign-out no post-login route remains. -/
theorem unmixed_of_navCond {debug : Bool} {accounts : List Uid} {store : Store}
    {acts : List Action} {s : App}
    (hc : Along (step debug) NavCond (App.launch accounts store) acts)
    (hr : run (step debug) (App.launch accounts store) acts = some s) :
    Unmixed s ∧ ∀ s', step debug s .signOut = some s' → ∀ e ∈ s'.stack, ¬ e.screen.isPostLogin := by
  have hI : NavInv s := run_invariant (fun _ _ _ h hC hs => h.step hC hs) (.launch _ _) hc hr
  refine ⟨hI.unmixed, fun s' hs e he => ?_⟩
  rw [signOut_stack hs e he]
  simp [Screen.isPostLogin]

/-- A Facebook registration through to the map. -/
def facebookTour : List Action :=
  [.resume 0 .done, .facebookSignIn, .resume 0 .done, .resume 0 (.credential "A"), .resume 0 .done,
    .pickProfileImage, .resume 0 .done, .continueProfile, .resume 0 (.form "Ahmad" "03001234567"),
    .resume 0 (.url "u"), .resume 0 .done, .commit 0, .resume 0 .done, .continueLocation,
    .resume 0 .done, .resume 0 .done, .resume 0 .done, .resume 0 .done, .resume 0 .done, .openMap]

theorem facebookTour_unmixed :
    ∃ s, run (step false) (App.launch [] ∅) facebookTour = some s ∧
      s.stack.map (·.screen) = [.userMap, .dashBoard] ∧ Unmixed s ∧
      ∀ s', step false s .signOut = some s' → ∀ e ∈ s'.stack, ¬ e.screen.isPostLogin :=
  ⟨_, rfl, by decide, @unmixed_of_navCond false [] ∅ facebookTour _ (by decide) rfl⟩

end Mazdoor
