/-
  One phone verification (`lib/Screens/enter_number.dart`).

  `verifyPhone` leaves the app with callbacks: `codeSent` opens the OTP dialog,
  `verificationCompleted` calls `signIn`, and so does every tap on Done that
  finds no user.  `signIn` pops a route for a returning account and assumes that
  it is the dialog; nothing keeps two calls, or a call and Done, from going on
  to the next screen one after the other.

  * `Verification.step`: callbacks, taps on Done, the completion of what they
    have started, and disposals, in any order; it collects the routes that
    `signIn` removes and the post-login screens that are entered
    (`codeAutoRetrievalTimeout` only stores an id for a later credential);
  * `Verified`: only the dialog is removed, one screen is entered, and the first
    one of a first-time account is `Registration`;
  * `completed_without_code`: an automatic verification that removes `EnterNumber`;
  * `VerificationInv` is the invariant, and `verified_iff_inTurn` the theorem: a
    verification is right if and only if whoever goes on finds the login
    screens as they were left to it.
-/
import Mazdoor.Frame

namespace Mazdoor

open Transition

/-! ## A verification -/

/-- A verification on its way. -/
structure Verification where
  app : App
  /-- the routes that `signIn` has removed with `pop` -/
  popped : List Screen
  /-- the post-login screens that were entered -/
  entered : List Screen

/-- Firebase signs in the account of the phone number, and no other. -/
def Reply.OfAccount (uid : Uid) : Reply → Prop
  | .credential u => u = uid
  | _ => True

/-- The actions on what was started after `s`. -/
def Action.OfVerification (s : App) (uid : Uid) : Action → Prop
  | .resume i r => s.tasks.length ≤ i ∧ r.OfAccount uid
  | .doneOTP | .dispose _ => True
  | _ => False

instance (uid : Uid) (r : Reply) : Decidable (r.OfAccount uid) := by
  induction r using Reply.casesOn <;> dsimp only [Reply.OfAccount] <;> infer_instance

instance (s : App) (uid : Uid) (a : Action) : Decidable (a.OfVerification s uid) := by
  induction a using Action.casesOn <;> dsimp only [Action.OfVerification] <;> infer_instance

/-- `signIn` executes `Navigator.pop`. -/
def Task.pops (s : App) : Task → Reply → Bool
  | .signIn k _ false, .done => s.isMounted k
  | _, _ => false

def Action.popped (s : App) : Action → List Screen
  | .resume i r => if s.tasks[i]?.any (·.pops s r) then s.top.toList else []
  | _ => []

/-- The post-login screens of a later state that were created since. -/
def App.entered (s s' : App) : List Screen :=
  (s'.stack.filter fun e => s.nextKey ≤ e.key && e.screen.isPostLogin).map (·.screen)

/-- A step of a verification that was started in `s`. -/
def Verification.step (debug : Bool) (s : App) (uid : Uid) (v : Verification) (a : Action) :
    Option Verification :=
  if a.OfVerification s uid then
    (Mazdoor.step debug v.app a).map fun t =>
      ⟨t, v.popped ++ a.popped v.app, v.entered ++ v.app.entered t⟩
  else none

/-- What a verification should do for the account `uid`. -/
structure Verified (s : App) (uid : Uid) (v : Verification) : Prop where
  /-- `signIn` removes the dialog -/
  popped : ∀ sc ∈ v.popped, ∃ k, sc = .smsOTPDialog k
  /-- at most one post-login route is entered -/
  entered : v.entered.length ≤ 1
  /-- a first-time account registers before it sees another screen -/
  registration : uid ∉ s.accounts → ∀ sc ∈ v.entered.takeWhile (· ≠ .userProfile),
    sc ≠ .dashBoard ∧ sc ≠ .userLocation

/-! ## A verification without a dialog -/

/-- The user opens `EnterNumber`. -/
def enterNumber : List Action := [.resume 0 .done, .openEnterNumber]

/-- The phone is verified without a code. -/
def completedWithoutCode : List Action :=
  [.resume 1 .verificationCompleted, .resume 2 .done, .resume 2 (.credential "A"), .resume 2 .done]

/-- **The claimed navigation fails**: `signIn` removes `EnterNumber`. -/
theorem completed_without_code :
    ∃ s s₁ v, run (step false) (App.launch ["A"] ∅) enterNumber = some s ∧
      s.stack = [⟨.enterNumber, 2⟩, ⟨.signIn, 1⟩] ∧ step false s .continuePhone = some s₁ ∧
      run (Verification.step false s "A") ⟨s₁, [], []⟩ completedWithoutCode = some v ∧
      v.popped = [.enterNumber] ∧ ¬ Verified s "A" v := by
  refine ⟨_, _, _, rfl, rfl, rfl, rfl, rfl, fun h => ?_⟩
  obtain ⟨k, hk⟩ := h.popped .enterNumber (by decide)
  cases hk

/-! ## The condition -/

def Screen.isDialog : Screen → Bool
  | .smsOTPDialog _ => true
  | _ => false

/-- Nobody has left the login screens. -/
def App.AtLogin (s : App) : Prop := ∀ e ∈ s.stack, e.screen.isLogin

/-- The OTP dialog is open. -/
def App.DialogOpen (s : App) : Prop := ∃ e ∈ s.stack, e.screen.isDialog

instance (s : App) : Decidable s.AtLogin :=
  inferInstanceAs (Decidable (∀ e ∈ s.stack, e.screen.isLogin))

instance (s : App) : Decidable s.DialogOpen :=
  inferInstanceAs (Decidable (∃ e ∈ s.stack, e.screen.isDialog))

/-- The condition of a continuation: with a live context `signIn` and Done go on
    only when nobody has left the login screens before them; the branches for a
    known account only for an account that had been there, and `signIn` only
    after `codeSent` has opened the dialog. -/
def Task.InTurn (accounts : List Uid) (uid : Uid) (s : App) : Task → Reply → Prop
  | .signIn k _ true, .done => s.isMounted k → s.AtLogin
  | .signIn k _ false, .done => s.isMounted k → s.AtLogin ∧ s.DialogOpen ∧ uid ∈ accounts
  | .done _ d (some _), .done => s.isMounted d → s.AtLogin ∧ uid ∈ accounts
  | _, _ => True

instance (accounts : List Uid) (uid : Uid) (s : App) (t : Task) (r : Reply) :
    Decidable (t.InTurn accounts uid s r) := by
  induction t using Task.casesOn
  case signIn k u isNewUser =>
    induction isNewUser using Bool.casesOn <;> induction r using Reply.casesOn <;>
      dsimp only [Task.InTurn] <;> infer_instance
  case done k d user =>
    induction user using Option.casesOn <;> induction r using Reply.casesOn <;>
      dsimp only [Task.InTurn] <;> infer_instance
  all_goals
    dsimp only [Task.InTurn]
    infer_instance

def Verification.InTurn (s : App) (uid : Uid) (v : Verification) : Action → Prop
  | .resume i r => ∀ t ∈ v.app.tasks[i]?, t.InTurn s.accounts uid v.app r
  | _ => True

instance (s : App) (uid : Uid) (v : Verification) (a : Action) :
    Decidable (v.InTurn s uid a) := by
  induction a using Action.casesOn <;> dsimp only [Verification.InTurn] <;> infer_instance

/-! ## Keys -/

namespace App

/-- The routes have keys that were given out. -/
def Keyed (s : App) : Prop := ∀ e ∈ s.stack, e.key < s.nextKey

section
variable {debug : Bool} {s s' : App} {t : Task} {r : Reply} {a : Action}

theorem Keyed.push (h : s.Keyed) (sc : Screen) : (s.push sc).Keyed := by
  intro e he
  rcases List.mem_cons.1 he with rfl | he
  · exact Nat.lt_succ_self _
  · exact Nat.lt_succ_of_lt (h e he)

theorem Keyed.pop (h : s.Keyed) : s.pop.Keyed := fun e he => h e (List.mem_of_mem_tail he)

theorem Keyed.pushReplacement (h : s.Keyed) (sc : Screen) : (s.pushReplacement sc).Keyed := by
  intro e he
  rw [pushReplacement_stack] at he
  rw [pushReplacement_nextKey]
  split
  · rename_i hs
    rw [hs] at he
    cases he
  · rcases Navigator.mem_pushReplacement he with rfl | he
    · exact Nat.lt_succ_self _
    · exact Nat.lt_succ_of_lt (h e (List.mem_of_mem_tail he))

theorem keyed_pushAndRemoveAll (s : App) (sc : Screen) : (s.pushAndRemoveAll sc).Keyed := by
  intro e he
  rw [pushAndRemoveAll_stack, Navigator.pushAndRemoveUntil_none, List.mem_singleton] at he
  rw [he]
  exact Nat.lt_succ_self _

theorem Resumed.keyed (hR : Resumed debug s t r s') (h : s.Keyed) : s'.Keyed := by
  induction hR with
  | idle => exact h
  | pop _ _ ih => exact ih.pop
  | push _ sc _ _ ih => exact ih.push sc
  | pushReplacement _ sc _ _ ih => exact ih.pushReplacement sc
  | pushAndRemoveAll _ sc => exact keyed_pushAndRemoveAll _ sc
  | _ => assumption

theorem Keyed.tap (h : s.Keyed) (ha : a.isTap) (hs : Mazdoor.step debug s a = some s') :
    s'.Keyed := by
  cases tap_of_step ha hs with
  | back => exact h.pop
  | spawnAll => exact h
  | create | openDrawer => exact fun e he => (h e he).trans (Nat.lt_succ_self _)
  | openEnterNumber | openMap => exact h.push _
  | signOut => exact keyed_pushAndRemoveAll _ _

theorem Keyed.step (h : s.Keyed) (hs : Mazdoor.step debug s a = some s') : s'.Keyed := by
  cases step_stepped hs with
  | tap ha => exact h.tap ha hs
  | relaunch =>
    intro e he
    rw [List.mem_singleton.1 he]
    exact Nat.lt_succ_self _
  | @resume i _ _ _ _ hr => exact (resume_resumed hr).keyed (s := s.dequeue i) h
  | dispose | located | geocode | commit | reject => exact h

theorem keyed_of_run {accounts : List Uid} {store : Store} {acts : List Action}
    (hr : run (Mazdoor.step debug) (launch accounts store) acts = some s) : s.Keyed := by
  refine run_invariant' (fun s a s' h hs => Keyed.step h hs) (fun e he => ?_) hr
  rw [List.mem_singleton.1 he]
  exact Nat.zero_lt_one

end
end App

/-! ## The invariant -/

/-- The tasks of a verification, and of the screens it leads to. -/
def Task.ofVerification : Task → Bool
  | .verifyPhone _ | .doneUser .. | .done .. | .signInPrefs _ | .signInCredential _ | .signIn ..
  | .readData _ => true
  | _ => false

/-- The tasks of the app, and the verification's own. -/
def App.Since (s t : App) : Prop := ∃ ts, t.tasks = s.tasks ++ ts ∧ ∀ x ∈ ts, x.ofVerification

/-- **The invariant** of a verification that was started in `s`: only dialogs lie
    over the login screens, or one post-login screen was entered and stays. -/
structure VerificationInv (s : App) (uid : Uid) (v : Verification) : Prop where
  keyed : v.app.Keyed
  tasks : s.Since v.app
  popped : ∀ sc ∈ v.popped, ∃ k, sc = .smsOTPDialog k
  phase : (v.entered = [] ∧ ∃ ds, v.app.stack = ds ++ s.stack ∧ ∀ d ∈ ds, d.screen.isDialog) ∨
    ∃ sc, v.entered = [sc] ∧ (∃ e ∈ v.app.stack, e.screen.isPostLogin) ∧
      (uid ∉ s.accounts → sc = .userProfile)

section
variable {debug : Bool} {s t : App} {uid : Uid} {v : Verification}

theorem Screen.isLogin_of_isDialog {sc : Screen} (h : sc.isDialog) : sc.isLogin := by
  cases sc <;> simp_all [Screen.isDialog, Screen.isLogin]

theorem Screen.eq_of_isDialog {sc : Screen} (h : sc.isDialog) : ∃ k, sc = .smsOTPDialog k := by
  cases sc <;> simp_all [Screen.isDialog]

theorem Screen.not_isLogin {sc : Screen} (h : sc.isPostLogin) : ¬ sc.isLogin := by
  cases sc <;> simp_all [Screen.isPostLogin, Screen.isLogin]

/-- No screen is entered when routes are removed only. -/
theorem App.entered_of_subset (h : s.Keyed) (hs : t.stack ⊆ s.stack) : s.entered t = [] := by
  rw [App.entered, List.map_eq_nil_iff, List.filter_eq_nil_iff]
  intro e he hk
  have := h e (hs he)
  simp only [Bool.and_eq_true, decide_eq_true_eq] at hk
  omega

/-- A new route on top of old ones. -/
theorem App.entered_cons (h : s.Keyed) {sc : Screen} {st : List Element}
    (ht : t.stack = ⟨sc, s.nextKey⟩ :: st) (hst : st ⊆ s.stack) :
    s.entered t = if sc.isPostLogin then [sc] else [] := by
  have hnil : (st.filter fun e => s.nextKey ≤ e.key && e.screen.isPostLogin) = [] := by
    refine List.filter_eq_nil_iff.2 fun e he hk => ?_
    have := h e (hst he)
    simp only [Bool.and_eq_true, decide_eq_true_eq] at hk
    omega
  rw [App.entered, ht, List.filter_cons, hnil]
  simp only [le_refl, decide_true, Bool.true_and]
  split <;> rfl

/-- **What the invariant is for.** -/
theorem VerificationInv.verified (h : VerificationInv s uid v) : Verified s uid v := by
  rcases h.phase with ⟨he, -⟩ | ⟨sc, he, -, hsc⟩
  · exact ⟨h.popped, by simp [he], by simp [he]⟩
  · refine ⟨h.popped, by simp [he], fun hu => ?_⟩
    simp [he, hsc hu]

/-- Where the login screens are all there, nothing was entered. -/
theorem VerificationInv.atLogin (h : VerificationInv s uid v) (hl : v.app.AtLogin) :
    v.entered = [] ∧ ∃ ds, v.app.stack = ds ++ s.stack ∧ ∀ d ∈ ds, d.screen.isDialog := by
  refine h.phase.resolve_right ?_
  rintro ⟨sc, -, ⟨e, he, hp⟩, -⟩
  exact Screen.not_isLogin hp (hl e he)

/-- Where they are not, a screen was entered. -/
theorem VerificationInv.not_atLogin {k j : ℕ} (h : VerificationInv s uid v)
    (hs : s.stack = [⟨.enterNumber, k⟩, ⟨.signIn, j⟩]) (hl : ¬ v.app.AtLogin) :
    ∃ sc, v.entered = [sc] ∧ ∃ e ∈ v.app.stack, e.screen.isPostLogin := by
  rcases h.phase with ⟨-, ds, hds, hd⟩ | ⟨sc, he, hp, -⟩
  · refine absurd (fun e he => ?_) hl
    rw [hds, hs] at he
    rcases List.mem_append.1 he with he | he
    · exact Screen.isLogin_of_isDialog (hd e he)
    · simp only [List.mem_cons, List.not_mem_nil, or_false] at he
      rcases he with rfl | rfl <;> rfl
  · exact ⟨sc, he, hp⟩

theorem App.Since.append {u : App} {new : List Task} (h : s.Since t) (hu : u.tasks = t.tasks ++ new)
    (hnew : ∀ x ∈ new, x.ofVerification) : s.Since u := by
  obtain ⟨ts, hts, hv⟩ := h
  refine ⟨ts ++ new, by rw [hu, hts, List.append_assoc], fun x hx => ?_⟩
  exact (List.mem_append.1 hx).elim (hv x) (hnew x)

theorem App.Since.spawn {x : Task} (h : s.Since t) (hx : x.ofVerification) : s.Since (t.spawn x) :=
  h.append (App.spawn_tasks t x) fun _ hy => List.mem_singleton.1 hy ▸ hx

/-- The state after a step. -/
def Verification.next (v : Verification) (t : App) (ps : List Screen) : Verification :=
  ⟨t, v.popped ++ ps, v.entered ++ v.app.entered t⟩

/-- A step that keeps the routes, but for a dialog that opens. -/
theorem VerificationInv.quiet (h : VerificationInv s uid v) (hk : t.Keyed) (ht : s.Since t)
    (hst : t.stack = v.app.stack ∨
      ∃ k, t.stack = ⟨.smsOTPDialog k, v.app.nextKey⟩ :: v.app.stack) :
    VerificationInv s uid (v.next t []) := by
  have he : v.app.entered t = [] := by
    rcases hst with hst | ⟨k, hst⟩
    · exact App.entered_of_subset h.keyed (hst ▸ List.Subset.refl _)
    · rw [App.entered_cons h.keyed hst (List.Subset.refl _)]
      rfl
  refine ⟨hk, ht, by simpa [Verification.next] using h.popped, ?_⟩
  simp only [Verification.next, he, List.append_nil]
  rcases hst with hst | ⟨k, hst⟩ <;> rw [hst]
  · exact h.phase
  · refine h.phase.imp ?_ ?_
    · rintro ⟨h0, ds, hds, hd⟩
      refine ⟨h0, ⟨.smsOTPDialog k, v.app.nextKey⟩ :: ds, by rw [hds, List.cons_append], ?_⟩
      exact List.forall_mem_cons.2 ⟨rfl, hd⟩
    · rintro ⟨sc, h1, ⟨e, he, hp⟩, hsc⟩
      exact ⟨sc, h1, ⟨e, List.mem_cons_of_mem _ he, hp⟩, hsc⟩

/-- The first post-login screen. -/
theorem VerificationInv.enter {sc : Screen} {st : List Element} {ps : List Screen}
    (h : VerificationInv s uid v) (h0 : v.entered = []) (hk : t.Keyed) (ht : s.Since t)
    (hst : t.stack = ⟨sc, v.app.nextKey⟩ :: st) (hsub : st ⊆ v.app.stack)
    (hp : sc.isPostLogin) (hsc : uid ∉ s.accounts → sc = .userProfile)
    (hps : ∀ sc ∈ ps, ∃ k, sc = .smsOTPDialog k) : VerificationInv s uid (v.next t ps) := by
  have he : v.app.entered t = [sc] := by
    rw [App.entered_cons h.keyed hst hsub, if_pos hp]
  refine ⟨hk, ht, fun sc' hsc' => ?_, Or.inr ⟨sc, ?_, ?_, hsc⟩⟩
  · exact (List.mem_append.1 hsc').elim (h.popped sc') (hps sc')
  · rw [Verification.next, h0, he, List.nil_append]
  · exact ⟨⟨sc, v.app.nextKey⟩, hst ▸ List.mem_cons_self, hp⟩

/-- No second screen is entered by a verification that is right. -/
theorem Verified.not_enter {sc sc' : Screen} {st : List Element} {ps : List Screen}
    (hv : Verified s uid (v.next t ps)) (h : VerificationInv s uid v) (h1 : v.entered = [sc'])
    (hst : t.stack = ⟨sc, v.app.nextKey⟩ :: st) (hsub : st ⊆ v.app.stack)
    (hp : sc.isPostLogin) : False := by
  have he : v.app.entered t = [sc] := by
    rw [App.entered_cons h.keyed hst hsub, if_pos hp]
  have := hv.entered
  simp [Verification.next, h1, he] at this

/-- The first screen of a first-time account. -/
theorem Verified.known {sc : Screen} {st : List Element} {ps : List Screen}
    (hv : Verified s uid (v.next t ps)) (h : VerificationInv s uid v) (h0 : v.entered = [])
    (hst : t.stack = ⟨sc, v.app.nextKey⟩ :: st) (hsub : st ⊆ v.app.stack)
    (hp : sc = .dashBoard ∨ sc = .userLocation) : uid ∈ s.accounts := by
  by_contra hu
  have he : v.app.entered t = [sc] := by
    rw [App.entered_cons h.keyed hst hsub, if_pos]
    rcases hp with rfl | rfl <;> rfl
  have hr := hv.registration hu sc
  simp only [Verification.next, h0, he, List.nil_append] at hr
  rcases hp with rfl | rfl <;> simp at hr

/-! ## Steps -/

theorem VerificationInv.stack_ne {k j : ℕ} (h : VerificationInv s uid v)
    (hs : s.stack = [⟨.enterNumber, k⟩, ⟨.signIn, j⟩]) : v.app.stack ≠ [] := by
  rcases h.phase with ⟨-, ds, hds, -⟩ | ⟨sc, -, ⟨e, he, -⟩, -⟩
  · simp [hds, hs]
  · exact List.ne_nil_of_mem he

theorem App.Since.pushReplacement {sc : Screen} (h : s.Since t)
    (hsc : sc = .userProfile ∨ sc = .userLocation) : s.Since (t.pushReplacement sc) := by
  refine h.append (App.pushReplacement_tasks t sc) fun x hx => ?_
  split at hx
  · cases hx
  · rcases hsc with rfl | rfl
    · cases hx
    · rw [App.initTasks, List.mem_singleton] at hx
      rw [hx]
      rfl

section
variable {k₀ j₀ : ℕ} (hs : s.stack = [⟨.enterNumber, k₀⟩, ⟨.signIn, j₀⟩])
include hs

/-- `signIn` for a first-time account. -/
theorem VerificationInv.signInNew {u : Uid} (h : VerificationInv s uid v) :
    (v.app.AtLogin →
      VerificationInv s uid (v.next ((v.app.setUserId u).pushReplacement .userProfile) [])) ∧
    (Verified s uid (v.next ((v.app.setUserId u).pushReplacement .userProfile) []) →
      v.app.AtLogin) := by
  have hst := Navigator.pushReplacement_of_ne (h.stack_ne hs) ⟨.userProfile, v.app.nextKey⟩
  constructor
  · intro hl
    exact h.enter (h.atLogin hl).1 (App.Keyed.pushReplacement (s := v.app.setUserId u) h.keyed _)
      (App.Since.pushReplacement (t := v.app.setUserId u) h.tasks (Or.inl rfl)) hst
      (List.tail_sublist _).subset rfl (fun _ => rfl) (by simp)
  · intro hv
    by_contra hl
    obtain ⟨sc, h1, -⟩ := h.not_atLogin hs hl
    exact hv.not_enter h h1 hst (List.tail_sublist _).subset rfl

/-- Done for a signed-in user. -/
theorem VerificationInv.doneKnown (h : VerificationInv s uid v) :
    (v.app.AtLogin ∧ uid ∈ s.accounts →
      VerificationInv s uid (v.next (v.app.pop.push .dashBoard) [])) ∧
    (Verified s uid (v.next (v.app.pop.push .dashBoard) []) →
      v.app.AtLogin ∧ uid ∈ s.accounts) := by
  have hst : (v.app.pop.push .dashBoard).stack = ⟨.dashBoard, v.app.nextKey⟩ :: v.app.stack.tail :=
    rfl
  constructor
  · rintro ⟨hl, hu⟩
    exact h.enter (h.atLogin hl).1 (h.keyed.pop.push _)
      (h.tasks.append (App.push_tasks _ _) (by simp [App.initTasks])) hst
      (List.tail_sublist _).subset rfl (fun hu' => absurd hu hu') (by simp)
  · intro hv
    have hl : v.app.AtLogin := by
      by_contra hl
      obtain ⟨sc, h1, -⟩ := h.not_atLogin hs hl
      exact hv.not_enter h h1 hst (List.tail_sublist _).subset rfl
    exact ⟨hl, hv.known h (h.atLogin hl).1 hst (List.tail_sublist _).subset (Or.inl rfl)⟩

/-- `signIn` for a known account. -/
theorem VerificationInv.signInKnown (h : VerificationInv s uid v) :
    (v.app.AtLogin ∧ v.app.DialogOpen ∧ uid ∈ s.accounts →
      VerificationInv s uid (v.next (v.app.pop.pushReplacement .userLocation) v.app.top.toList)) ∧
    (Verified s uid (v.next (v.app.pop.pushReplacement .userLocation) v.app.top.toList) →
      v.app.AtLogin ∧ v.app.DialogOpen ∧ uid ∈ s.accounts) := by
  have hsub : v.app.stack.tail.tail ⊆ v.app.stack :=
    fun e he => List.mem_of_mem_tail (List.mem_of_mem_tail he)
  -- the pop leaves a route to replace, unless it removes the only one
  have hst (hne : v.app.stack.tail ≠ []) : (v.app.pop.pushReplacement .userLocation).stack =
      ⟨.userLocation, v.app.nextKey⟩ :: v.app.stack.tail.tail :=
    Navigator.pushReplacement_of_ne hne ⟨.userLocation, v.app.nextKey⟩
  constructor
  · rintro ⟨hl, ⟨d, hd, hdialog⟩, hu⟩
    obtain ⟨h0, ds, hds, hdialogs⟩ := h.atLogin hl
    cases ds with
    | nil =>
      rw [hds, hs] at hd
      simp only [List.nil_append, List.mem_cons, List.not_mem_nil, or_false] at hd
      rcases hd with rfl | rfl <;> cases hdialog
    | cons d' ds =>
      have htail : v.app.stack.tail ≠ [] := by simp [hds, hs]
      have htop : v.app.top = some d'.screen := by simp [App.top, hds]
      refine h.enter h0 (h.keyed.pop.pushReplacement _)
        (App.Since.pushReplacement (t := v.app.pop) h.tasks (Or.inr rfl)) (hst htail) hsub rfl
        (fun hu' => absurd hu hu') fun sc hsc => ?_
      rw [htop, Option.toList_some, List.mem_singleton] at hsc
      exact hsc ▸ Screen.eq_of_isDialog (hdialogs d' List.mem_cons_self)
  · intro hv
    have hpop : ∀ sc ∈ v.app.top, ∃ k, sc = .smsOTPDialog k := fun sc hsc =>
      hv.popped sc (List.mem_append_right _ (Option.mem_toList.2 hsc))
    have hl : v.app.AtLogin := by
      by_contra hl
      obtain ⟨sc, h1, e, he, hp⟩ := h.not_atLogin hs hl
      cases hst' : v.app.stack with
      | nil => exact h.stack_ne hs hst'
      | cons e' st =>
        by_cases hne : st = []
        · -- the only route is the post-login screen, and it is popped
          subst hne
          rw [hst', List.mem_singleton] at he
          subst he
          obtain ⟨k, hk⟩ := hpop e.screen (by simp [App.top, hst'])
          rw [hk] at hp
          cases hp
        · exact hv.not_enter h h1 (hst (by rwa [hst'])) hsub rfl
    obtain ⟨h0, ds, hds, hdialogs⟩ := h.atLogin hl
    cases ds with
    | nil =>
      -- without a dialog `EnterNumber` is popped
      obtain ⟨k, hk⟩ := hpop .enterNumber (by simp [App.top, hds, hs])
      cases hk
    | cons d ds =>
      refine ⟨hl, ⟨d, ?_, hdialogs d List.mem_cons_self⟩, ?_⟩
      · rw [hds]
        exact List.mem_cons_self
      · exact hv.known h h0 (hst (by simp [hds, hs])) hsub (Or.inr rfl)

/-- **Continuations.**  A continuation in turn keeps the invariant, and one that
    keeps the verification right is in turn. -/
theorem VerificationInv.resume {x : Task} {r : Reply} (h : VerificationInv s uid v)
    (hx : x.ofVerification) (hr : App.resume debug v.app x r = some t) :
    (x.InTurn s.accounts uid v.app r →
      VerificationInv s uid (v.next t (if x.pops v.app r then v.app.top.toList else []))) ∧
    (Verified s uid (v.next t (if x.pops v.app r then v.app.top.toList else [])) →
      x.InTurn s.accounts uid v.app r) := by
  have hk : t.Keyed := (App.resume_resumed hr).keyed h.keyed
  have quiet {t : App} {c : Prop} (hc : c) (hk : t.Keyed) (ht : s.Since t)
      (hst : t.stack = v.app.stack ∨
        ∃ k, t.stack = ⟨.smsOTPDialog k, v.app.nextKey⟩ :: v.app.stack) :
      (c → VerificationInv s uid (v.next t [])) ∧ (Verified s uid (v.next t []) → c) :=
    ⟨fun _ => h.quiet hk ht hst, fun _ => hc⟩
  have idle {c : Prop} (hc : c) := quiet hc h.keyed h.tasks (Or.inl rfl)
  cases x <;> simp only [Task.ofVerification, reduceCtorEq] at hx
  case verifyPhone k =>
    cases r <;> simp only [App.resume, Option.some.injEq, reduceCtorEq] at hr <;> subst hr
    case failed => exact idle trivial
    case codeSent =>
      have hsince : s.Since (v.app.spawn (.verifyPhone k)) := h.tasks.spawn rfl
      rcases App.withContext_cases (v.app.spawn (.verifyPhone k)) k (·.push (.smsOTPDialog k))
        with ⟨-, hw⟩ | hw <;> rw [hw] at hk ⊢
      · refine quiet trivial hk ?_ (Or.inr ⟨k, rfl⟩)
        exact hsince.append (App.push_tasks _ _) (by simp [App.initTasks])
      · exact quiet trivial hk hsince (Or.inl rfl)
    case verificationCompleted =>
      exact quiet trivial hk ((h.tasks.spawn (x := .verifyPhone k) rfl).spawn rfl) (Or.inl rfl)
  case doneUser k d =>
    cases r <;> simp only [App.resume, Option.some.injEq, reduceCtorEq] at hr <;> subst hr
    case failed => exact idle trivial
    case done =>
      exact quiet trivial hk (h.tasks.spawn rfl) (Or.inl rfl)
  case done k d user =>
    cases user <;> cases r <;>
      simp only [App.resume, Option.some.injEq, reduceCtorEq] at hr <;> subst hr
    case none.failed | some.failed => exact idle trivial
    case none.done =>
      exact quiet trivial hk (h.tasks.spawn rfl) (Or.inl rfl)
    case some.done u =>
      by_cases hm : v.app.isMounted d
      · simp only [App.withContext, Task.InTurn, hm, true_imp_iff]
        exact h.doneKnown hs
      · simp only [App.withContext, if_neg hm]
        exact idle fun hm' => absurd hm' hm
  case signInPrefs k =>
    cases r <;> simp only [App.resume, Option.some.injEq, reduceCtorEq] at hr <;> subst hr
    case failed => exact idle trivial
    case done =>
      exact quiet trivial hk (h.tasks.spawn rfl) (Or.inl rfl)
  case signInCredential k =>
    cases r <;> simp only [App.resume, Option.some.injEq, reduceCtorEq] at hr <;> subst hr
    case failed => exact idle trivial
    case credential u =>
      exact quiet trivial hk (h.tasks.spawn rfl) (Or.inl rfl)
  case signIn k u isNewUser =>
    cases isNewUser <;> cases r <;>
      simp only [App.resume, Option.some.injEq, reduceCtorEq] at hr <;> subst hr
    case false.failed | true.failed => exact idle trivial
    case false.done =>
      by_cases hm : v.app.isMounted k
      · simp only [App.withContext, Task.InTurn, Task.pops, hm, true_imp_iff]
        exact h.signInKnown hs
      · simp only [App.withContext, Task.pops, Task.InTurn, hm, Bool.false_eq_true, if_false,
          false_imp_iff]
        exact idle trivial
    case true.done =>
      by_cases hm : v.app.isMounted k
      · simp only [Task.InTurn, hm, true_imp_iff]
        exact h.signInNew hs
      · simp only [if_neg hm]
        exact idle fun hm' => absurd hm' hm
  case readData k =>
    cases r <;> simp only [App.resume, Option.some.injEq, reduceCtorEq] at hr <;> subst hr
    case failed => exact idle trivial
    case done => exact quiet trivial hk h.tasks (Or.inl rfl)

/-- **Steps.**  A step in turn keeps the invariant, and one that keeps the
    verification right is in turn. -/
theorem VerificationInv.step {v' : Verification} {a : Action} (h : VerificationInv s uid v)
    (ht : Verification.step debug s uid v a = some v') :
    (v.InTurn s uid a → VerificationInv s uid v') ∧ (Verified s uid v' → v.InTurn s uid a) := by
  simp only [Verification.step, Option.ite_none_right_eq_some, Option.map_eq_some_iff] at ht
  obtain ⟨ha, t, ht, rfl⟩ := ht
  have hk : t.Keyed := h.keyed.step ht
  cases a <;> simp only [Action.OfVerification] at ha <;> simp only [Mazdoor.step] at ht <;>
    simp only [Action.popped, Verification.InTurn]
  case doneOTP =>
    split at ht
    · obtain rfl := Option.some.inj ht
      exact ⟨fun _ => h.quiet hk (h.tasks.spawn rfl) (Or.inl rfl), fun _ => trivial⟩
    · cases ht
  case dispose d =>
    split_ifs at ht
    obtain rfl := Option.some.inj ht
    exact ⟨fun _ => h.quiet hk h.tasks (Or.inl rfl), fun _ => trivial⟩
  case resume i r =>
    cases hi : v.app.tasks[i]? with
    | none => simp [hi] at ht
    | some x =>
      rw [hi] at ht
      obtain ⟨ts, hts, hv⟩ := h.tasks
      obtain ⟨n, hn, he⟩ := App.eraseIdx_since hts ha.1 hi
      have hd : VerificationInv s uid ⟨v.app.dequeue i, v.popped, v.entered⟩ :=
        { h with tasks := ⟨_, he, fun x hx => hv x (List.mem_of_mem_eraseIdx hx)⟩ }
      have hr := hd.resume hs (hv x (List.mem_of_getElem? hn)) ht
      simp only [Option.any_some, Option.mem_def, Option.some.injEq, forall_eq']
      exact hr

/-- **One phone verification.**  Started from `EnterNumber` over `SignIn` in a
    reachable state, a verification removes and enters what it should after
    every step, if and only if its continuations are in turn. -/
theorem verified_iff_inTurn {accounts : List Uid} {store : Store} {acts as : List Action}
    {s₁ : App} (hr₀ : run (Mazdoor.step debug) (App.launch accounts store) acts = some s)
    (hp : Mazdoor.step debug s .continuePhone = some s₁)
    (hr : run (Verification.step debug s uid) ⟨s₁, [], []⟩ as = some v) :
    (∀ as' v', as' <+: as → run (Verification.step debug s uid) ⟨s₁, [], []⟩ as' = some v' →
      Verified s uid v') ↔
      Along (Verification.step debug s uid) (Verification.InTurn s uid) ⟨s₁, [], []⟩ as := by
  have hkeyed : s.Keyed := App.keyed_of_run hr₀
  simp only [Mazdoor.step] at hp
  obtain ⟨k, st, -, rfl⟩ := App.onTop_eq_some hp
  refine forall_prefix_iff_along (I := VerificationInv s uid) (fun _ h => h.verified)
    (fun _ _ _ h hc hs' => (h.step hs hs').1 hc) (fun _ _ _ h hs' => (h.step hs hs').2)
    ⟨hkeyed, ?_, by simp, Or.inl ⟨rfl, [], rfl, by simp⟩⟩ hr
  exact ⟨[.verifyPhone k], rfl, fun x hx => List.mem_singleton.1 hx ▸ rfl⟩

end

end

/-- A known account types the code into the dialog. -/
def codeTyped : List Action :=
  [.resume 1 .codeSent, .doneOTP, .resume 2 .done, .resume 2 .done, .resume 2 .done,
    .resume 2 (.credential "A"), .resume 2 .done]

theorem codeTyped_verified :
    ∃ s s₁ v, run (step false) (App.launch ["A"] ∅) enterNumber = some s ∧
      step false s .continuePhone = some s₁ ∧
      run (Verification.step false s "A") ⟨s₁, [], []⟩ codeTyped = some v ∧
      v.popped = [.smsOTPDialog 2] ∧ v.entered = [.userLocation] ∧ Verified s "A" v :=
  ⟨_, _, _, rfl, rfl, rfl, rfl, rfl,
    (@verified_iff_inTurn false _ "A" _ 2 1 rfl ["A"] ∅ enterNumber codeTyped _ rfl rfl rfl).2
      (by decide) _ _ List.prefix_rfl rfl⟩

end Mazdoor
