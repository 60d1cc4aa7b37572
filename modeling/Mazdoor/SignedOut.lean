/-
  A device on which nobody is signed in.

  * `Screen.isEntry`, `Task.ofEntry`, `Event.ofEntry`: the screens before the
    sign-in, the tasks of these screens, and what such a device may log;
  * `SignedOut s t`: since `s` the app has stayed before the sign-in;
  * `SignedOut.step`: so it does as long as Firebase accepts no credential;
  * `signedOut_of_run`: from the first start, or from a restart without an
    account, a device shows no page of an account, reads and shows no data of a
    user and issues no write, whoever signs in on the other devices meanwhile.
-/
import Mazdoor.Ledger

namespace Mazdoor

open Transition

/-- The screens before the sign-in. -/
def Screen.isEntry : Screen → Bool
  | .splashScreen | .delayedAnimation => true
  | sc => sc.isLogin

/-- The tasks of the screens before the sign-in, up to the credential. -/
def Task.ofEntry : Task → Bool
  | .navigatePage _ | .messagingUserId _ | .messagingToken _ | .verifyPhone _ | .doneUser ..
  | .done _ _ none | .signInPrefs _ | .signInCredential _ | .facebookLogIn _
  | .facebookCredential _ | .animation _ => true
  | _ => false

/-- Events that are about no user of the device: answers to earlier writes, and
    the errors of disposed states. -/
def Event.ofEntry : Event → Bool
  | .committed .. | .created .. | .setStateAfterDispose _ | .forwardAfterDispose _ => true
  | _ => false

/-- Firebase accepts a credential. -/
def Action.signsIn : Action → Bool
  | .resume _ (.credential _) => true
  | _ => false

/-- The app has just been started, and nobody is signed in. -/
inductive App.Starting : App → Prop
  | launch (accounts : List Uid) (store : Store) : Starting (App.launch accounts store)
  | relaunch {s : App} (h : s.auth = none) : Starting s.relaunch

/-- Since `s`, the app has stayed before the sign-in. -/
structure SignedOut (s t : App) : Prop where
  auth : t.auth = none
  prefs : t.prefs = s.prefs
  /-- only the messaging token is read -/
  global : ∃ token, t.global = { userToken := token }
  stack : ∀ e ∈ t.stack, e.screen.isEntry
  mounted : ∀ e ∈ t.mounted, e.screen.isEntry
  tasks : ∀ x ∈ t.tasks, x.ofEntry
  /-- no write is issued; those of the time before are answered, without callbacks -/
  pending : t.pending.Sublist s.pending
  callbacks : ∀ w ∈ t.pending, w.onDone = none ∧ w.onError = none
  log : ∃ es, t.log = s.log ++ es ∧ ∀ e ∈ es, e.ofEntry

namespace SignedOut

variable {debug : Bool} {s t t' : App} {a : Action} {sc : Screen}

theorem ofEntry_of_mem_initTasks {k : ℕ} {x : Task} (hsc : sc.isEntry)
    (hx : x ∈ App.initTasks k sc) : x.ofEntry := by
  cases sc <;> simp_all [App.initTasks, Screen.isEntry, Screen.isLogin, Task.ofEntry]

theorem start (h : s.Starting) : SignedOut s s := by
  have hlog : ∃ es, s.log = s.log ++ es ∧ ∀ e ∈ es, e.ofEntry :=
    ⟨[], (List.append_nil _).symm, fun e he => absurd he List.not_mem_nil⟩
  cases h with
  | launch =>
    exact ⟨rfl, rfl, ⟨none, rfl⟩, List.forall_mem_singleton.2 rfl,
      List.forall_mem_singleton.2 rfl, List.forall_mem_singleton.2 rfl, List.Sublist.refl _,
      by simp, hlog⟩
  | relaunch h =>
    exact ⟨h, rfl, ⟨none, rfl⟩, List.forall_mem_singleton.2 rfl,
      List.forall_mem_singleton.2 rfl, List.forall_mem_singleton.2 rfl, List.Sublist.refl _,
      by simp, hlog⟩

/-! ## Operations -/

theorem spawn {x : Task} (h : SignedOut s t) (hx : x.ofEntry) : SignedOut s (t.spawn x) :=
  { h with tasks := List.forall_mem_append.2 ⟨h.tasks, List.forall_mem_singleton.2 hx⟩ }

theorem emit {es : List Event} (h : SignedOut s t) (hes : ∀ e ∈ es, e.ofEntry) :
    SignedOut s { t with log := t.log ++ es } := by
  obtain ⟨es', hl, he⟩ := h.log
  refine { h with log := ⟨es' ++ es, ?_, List.forall_mem_append.2 ⟨he, hes⟩⟩ }
  rw [hl, List.append_assoc]

theorem create (h : SignedOut s t) (hsc : sc.isEntry) : SignedOut s (t.create sc) :=
  { h with
    mounted := List.forall_mem_cons.2 ⟨hsc, h.mounted⟩
    tasks := List.forall_mem_append.2 ⟨h.tasks, fun _ => ofEntry_of_mem_initTasks hsc⟩ }

theorem push (h : SignedOut s t) (hsc : sc.isEntry) : SignedOut s (t.push sc) :=
  { h.create hsc with stack := List.forall_mem_cons.2 ⟨hsc, h.stack⟩ }

theorem pop (h : SignedOut s t) : SignedOut s t.pop :=
  { h with stack := fun e he => h.stack e (List.mem_of_mem_tail he) }

theorem pushAndRemoveAll (h : SignedOut s t) (hsc : sc.isEntry) :
    SignedOut s (t.pushAndRemoveAll sc) := by
  refine { h.create hsc with stack := ?_ }
  rw [App.pushAndRemoveAll_stack, Navigator.pushAndRemoveUntil_none]
  exact List.forall_mem_singleton.2 hsc

theorem withContext {k : ℕ} {f : App → App} (h : SignedOut s t) (hf : SignedOut s (f t)) :
    SignedOut s (t.withContext k f) := by
  rcases App.withContext_cases t k f with ⟨-, hw⟩ | hw <;> rw [hw]
  · exact hf
  · exact h

/-- The messaging token reaches `EnterNumber`. -/
theorem setToken (h : SignedOut s t) (k : ℕ) (token : String) :
    SignedOut s (t.setState debug k ({ · with userToken := some token })) := by
  obtain ⟨old, hg⟩ := h.global
  have hlog : ∀ e ∈ t.stateError k, e.ofEntry := fun e he => App.eq_of_mem_stateError he ▸ rfl
  refine { h.emit hlog with global := ?_ }
  rw [App.setState_global, hg]
  split_ifs
  · exact ⟨some token, rfl⟩
  · exact ⟨old, rfl⟩

theorem dequeue (h : SignedOut s t) (i : ℕ) : SignedOut s (t.dequeue i) :=
  { h with tasks := fun x hx => h.tasks x (List.mem_of_mem_eraseIdx hx) }

theorem answer (h : SignedOut s t) (j : ℕ) : SignedOut s (t.answer j) :=
  { h with
    pending := (List.eraseIdx_sublist _ _).trans h.pending
    callbacks := fun w hw => h.callbacks w (List.mem_of_mem_eraseIdx hw) }

/-- Other devices may change the backend. -/
theorem on (h : SignedOut s t) (b : Backend) : SignedOut s (t.on b) := { h with }

/-! ## Steps -/

/-- A page that a signed-out device shows is one before the sign-in. -/
theorem onTop {f : ℕ → App} (h : SignedOut s t) (hs : t.onTop sc f = some t')
    (hf : sc.isEntry → ∀ k, SignedOut s (f k)) : SignedOut s t' := by
  obtain ⟨k, st, hst, rfl⟩ := App.onTop_eq_some hs
  exact hf (h.stack ⟨sc, k⟩ (hst ▸ List.mem_cons_self)) k

theorem tapped (h : SignedOut s t) (ha : a.isTap) (hs : Mazdoor.step debug t a = some t') :
    SignedOut s t' := by
  cases a <;> simp only [Action.isTap, reduceCtorEq] at ha <;> simp only [Mazdoor.step] at hs
  case back =>
    simp only [Option.ite_none_right_eq_some, Option.some.injEq] at hs
    exact hs.2 ▸ h.pop
  case buildAnimation => exact h.onTop hs fun _ _ => h.create rfl
  case openEnterNumber => exact h.onTop hs fun _ _ => h.push rfl
  case facebookSignIn | continuePhone => exact h.onTop hs fun _ _ => h.spawn rfl
  case doneOTP =>
    split at hs
    · exact Option.some.inj hs ▸ h.spawn rfl
    · cases hs
  case pickDrawerImage =>
    simp only [Option.ite_none_right_eq_some] at hs
    exact h.onTop hs.2 (by simp [Screen.isEntry, Screen.isLogin])
  all_goals exact h.onTop hs (by simp [Screen.isEntry, Screen.isLogin])

/-- What the entry screens have started goes on to the credential, and no further. -/
theorem resumed {x : Task} {r : Reply} (h : SignedOut s t) (hx : x.ofEntry)
    (hr : ∀ uid, r ≠ .credential uid) (hs : App.resume debug t x r = some t') :
    SignedOut s t' := by
  unfold App.resume at hs
  split at hs <;> simp only [Option.some.injEq, reduceCtorEq] at hs <;> subst hs
  case h_1 => exact h
  case h_2 =>
    refine h.withContext (h.pushAndRemoveAll ?_)
    rw [h.auth]
    rfl
  case h_3 | h_9 | h_10 | h_14 => exact h.spawn rfl
  case h_4 => exact h.setToken _ _
  case h_5 => exact (h.spawn rfl).withContext ((h.spawn rfl).push rfl)
  case h_6 => exact (h.spawn rfl).spawn rfl
  case h_7 => exact h.spawn (by rw [h.auth]; rfl)
  case h_11 | h_15 => exact absurd rfl (hr _)
  case h_40 =>
    split
    · exact h
    · exact h.emit (List.forall_mem_singleton.2 rfl)
  all_goals simp [Task.ofEntry] at hx

/-- **One step.**  Without a credential the app stays before the sign-in. -/
theorem step (h : SignedOut s t) (ha : a.signsIn = false)
    (hs : Mazdoor.step debug t a = some t') : SignedOut s t' := by
  cases App.step_stepped hs with
  | tap htap => exact h.tapped htap hs
  | relaunch =>
    -- the pending writes have lost their callbacks already
    have hp : t.relaunch.pending = t.pending :=
      (List.map_congr_left fun w hw => by
        obtain ⟨hd, he⟩ := h.callbacks w hw
        cases w
        simp_all).trans (List.map_id _)
    exact ⟨h.auth, h.prefs, ⟨none, rfl⟩, List.forall_mem_singleton.2 rfl,
      List.forall_mem_singleton.2 rfl, List.forall_mem_singleton.2 rfl, hp ▸ h.pending,
      hp ▸ h.callbacks, h.log⟩
  | dispose => exact { h with mounted := fun e he => h.mounted e (List.mem_of_mem_filter he) }
  | located _ hk | geocode _ hk => cases h.mounted _ hk
  | resume hx hr =>
    refine resumed (h.dequeue _) (h.tasks _ (List.mem_of_getElem? hx)) (fun uid hr => ?_) hr
    subst hr
    cases ha
  | @commit j w hw =>
    have hlog : ∀ e ∈ .committed w.site w.fields :: (t.answer j).creation w, e.ofEntry := by
      intro e he
      rcases List.mem_cons.1 he with rfl | he
      · rfl
      · obtain ⟨_, -, -, rfl⟩ := App.mem_creation he
        rfl
    refine { (h.answer j).emit hlog with tasks := ?_ }
    rw [App.commit_tasks, (h.callbacks w (List.mem_of_getElem? hw)).1]
    simpa using h.tasks
  | @reject j w hw =>
    rw [(h.callbacks w (List.mem_of_getElem? hw)).2]
    exact { h.answer j with tasks := by simpa using h.tasks }

end SignedOut

section
variable {debug : Bool} {ι : Type} [DecidableEq ι] {n n' : Fleet ι} {as : List (ι × Action)}
  {i : ι}

/-- A restart without an account. -/
theorem starting_of_step (ho : (n.app i).auth = none)
    (hs : Fleet.step debug n (i, .relaunch) = some n') : (n'.app i).Starting := by
  obtain ⟨s', hn, -, hv, -⟩ := Shared.step_cases hs
  obtain rfl : (n.app i).relaunch = s' := Option.some.inj hn
  have hv : n'.app i = (n.app i).relaunch := hv
  exact hv ▸ .relaunch ho

/-- **Signed out.**  From its first start, or from a restart without an account,
    a device on which Firebase accepts no credential shows no page of an
    account, reads and shows no data of a user and issues no write, whatever
    its user taps and whatever happens on the other devices. -/
theorem signedOut_of_run (hi : (n.app i).Starting)
    (ha : ∀ a ∈ Shared.actionsOf i as, a.signsIn = false)
    (hr : run (Fleet.step debug) n as = some n') : SignedOut (n.app i) (n'.app i) := by
  have h := Shared.run_charge (M := device debug) (i := i)
    (J := fun t c => c = 0 → SignedOut (n.app i) t) (f := fun a => if a.signsIn then 1 else 0)
    (c := 0) (fun t c a t' h hs hc => ?_) (fun _ _ _ h hc => (h hc).on _) (fun _ => .start hi) hr
  · refine h ?_
    rw [Nat.zero_add, Shared.sum_eq_countP, List.countP_eq_zero]
    simpa using ha
  · obtain ⟨hc, ha⟩ := Nat.add_eq_zero_iff.1 hc
    exact (h hc).step (by simpa using ha) hs

/-- The user signs out. -/
def signedOut : List (ℕ × Action) := twoDevices ++ [(1, .back), (1, .signOut)]

/-- A code that Firebase does not accept, while another user sends a request. -/
def wrongCode : List (ℕ × Action) :=
  (0, .tapMarker mason) ::
    [.resume 0 .done, .openEnterNumber, .continuePhone, .resume 1 .codeSent, .doneOTP,
      .resume 2 .done, .resume 2 .done, .resume 2 .done, .resume 2 .failed].map (1, ·)

theorem signedOut_wrongCode :
    ∃ n₀ n n' : Fleet ℕ, run (Fleet.step true) (Fleet.launch [] ∅) signedOut = some n₀ ∧
      Fleet.step true n₀ (1, .relaunch) = some n ∧
      run (Fleet.step true) n wrongCode = some n' ∧
      (∃ k, (n'.app 1).top = some (.smsOTPDialog k)) ∧ SignedOut (n.app 1) (n'.app 1) :=
  ⟨_, _, _, rfl, rfl, rfl, ⟨_, rfl⟩,
    @signedOut_of_run true ℕ _ _ _ wrongCode 1 (starting_of_step (n := _) rfl rfl)
      (by decide) rfl⟩

end
end Mazdoor
