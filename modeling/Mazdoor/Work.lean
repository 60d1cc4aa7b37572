/-
  How much work a tap can start.

  * `Task.successors`, `Action.tasks`: the tasks that a continuation and a tap
    start, at most; `resume_successors`, `tap_tasks`: no others;
  * `App.weight`: the weight of all that is under way, for a weight of the tasks;
  * `settle_terminates`: left alone, an app makes no more completions than it has
    under way, but for the verifications that Firebase completes;
  * `writes_le_taps`: in every run of a fleet, a device has issued no more writes
    of a kind than its user has made taps for;
  * `work_le_income`: and it has made no more completions than its taps, its
    position events and Firebase's callbacks have started.
-/
import Mathlib.Algebra.BigOperators.Ring.List
import Mathlib.Tactic.Ring
import Mazdoor.Lib.Budget
import Mazdoor.Ledger

namespace Mazdoor

open Transition

/-! ## What is started -/

/-- The tasks that a continuation starts, those of a created state included. -/
def Task.successors (s : App) : Task → Reply → List Task
  | .messagingUserId k, .done => [.messagingToken k]
  | .verifyPhone k, .codeSent => [.verifyPhone k]
  | .verifyPhone k, .verificationCompleted => [.verifyPhone k, .signInPrefs k]
  | .doneUser k d, .done => [.done k d s.auth]
  | .done k _ none, .done => [.signInPrefs k]
  | .signInPrefs k, .done => [.signInCredential k]
  | .signInCredential k, .credential uid => [.signIn k uid (s.isNewUser uid)]
  | .facebookLogIn k, .done => [.facebookCredential k]
  | .facebookCredential k, .credential uid => [.facebook k uid (s.isNewUser uid)]
  | .signIn _ _ false, .done | .facebook _ _ false, .done | .addPhoneNumberDone .., .done =>
    [.readData s.nextKey]
  | .uploadPic k who, .url _ => [.addPhoneNumber k who]
  | .locationPrefs k who, .done => [.locationUserId k who]
  | .locationUserId k who, .done => [.locationStore k who (functionUserId s.prefs)]
  | .locationStore k who _, .done => (k.map (.locationDone · who)).toList
  | .tapHeader key who uid, .done => [.tapProfile key who uid]
  | .drawerImage k who, .done => [.drawerUpload k who]
  | .drawerUpload _ who, .url u => [.picUser u who]
  | .picUser u who, .done => [.picUpdate u who]
  | .picUpdate u who, .done => [.picUpdated u who]
  | .picUpdated u who, .done => (s.auth.map (.picQuery u · who)).toList
  | _, _ => []

/-- The tasks that a tap starts: `k` is the `State` of the page on top, `d` an OTP dialog. -/
def Action.tasks (s : App) (k d : ℕ) : Action → List Task
  | .buildAnimation => [.animation s.nextKey]
  | .openEnterNumber => [.messagingUserId s.nextKey]
  | .facebookSignIn => [.facebookLogIn k]
  | .continuePhone => [.verifyPhone k]
  | .doneOTP => [.doneUser k d]
  | .pickProfileImage => [.profileImage k]
  | .continueProfile => [.validityState k, .uploadPic k s.auth]
  | .continueLocation => [.locationPrefs (some k) s.auth]
  | .pickDrawerImage k' => [.drawerImage k' s.auth]
  | .proceed => [.locationPrefs none s.auth]
  | .tapMarker labor => [.tap labor s.auth]
  | _ => []

section
variable {debug : Bool} {s s' : App} {t : Task} {r : Reply} {a : Action}

/-- What is started when a context's navigator is used. -/
theorem tasks_withContext {k : ℕ} {f : App → App} {us : List Task}
    (hf : ∃ ts : List Task, (f s).tasks = s.tasks ++ ts ∧ ts.Sublist us) :
    ∃ ts : List Task, (s.withContext k f).tasks = s.tasks ++ ts ∧ ts.Sublist us := by
  rcases App.withContext_cases s k f with ⟨-, hw⟩ | hw <;> rw [hw]
  · exact hf
  · exact ⟨[], (List.append_nil _).symm, List.nil_sublist _⟩

theorem tasks_pushReplacement (s : App) (sc : Screen) :
    ∃ ts : List Task, (s.pushReplacement sc).tasks = s.tasks ++ ts ∧
      ts.Sublist (App.initTasks s.nextKey sc) := by
  refine ⟨_, rfl, ?_⟩
  split
  · exact List.nil_sublist _
  · exact List.Sublist.refl _

/-- **Continuations** start their successors, or fewer. -/
theorem resume_successors (h : App.resume debug s t r = some s') :
    ∃ ts : List Task, s'.tasks = s.tasks ++ ts ∧ ts.Sublist (t.successors s r) := by
  have none (us : List Task) : ∃ ts : List Task, s.tasks = s.tasks ++ ts ∧ ts.Sublist us :=
    ⟨[], (List.append_nil _).symm, List.nil_sublist _⟩
  have all (ts : List Task) : ∃ ts' : List Task, s.tasks ++ ts = s.tasks ++ ts' ∧ ts'.Sublist ts :=
    ⟨ts, rfl, List.Sublist.refl _⟩
  unfold App.resume at h
  split at h <;> simp only [Option.some.injEq, reduceCtorEq] at h <;> subst h
  case h_2 =>
    refine tasks_withContext ⟨_, rfl, ?_⟩
    split <;> exact List.Sublist.refl _
  case h_5 k =>
    refine ⟨[.verifyPhone k], ?_, List.Sublist.refl _⟩
    rcases App.withContext_cases (s.spawn (.verifyPhone k)) k (·.push (.smsOTPDialog k))
      with ⟨-, hw⟩ | hw <;> rw [hw]
    · exact List.append_nil _
    · rfl
  case h_6 k => exact ⟨[.verifyPhone k, .signInPrefs k], by simp, List.Sublist.refl _⟩
  case h_8 => exact tasks_withContext ⟨[], rfl, List.nil_sublist _⟩
  case h_12 =>
    split
    · exact tasks_pushReplacement (s.setUserId _) _
    · exact none _
  case h_38 u who =>
    split
    · next uid hu => exact ⟨[.picQuery u uid who], rfl, by simp [Task.successors, hu]⟩
    · exact none _
  all_goals first
    | exact none _
    | exact all _
    | exact tasks_withContext (tasks_pushReplacement _ _)
    | (split <;> first | exact none _ | exact all _)

/-- **Taps** start their tasks, or fewer. -/
theorem tap_tasks (ha : a.isTap) (h : step debug s a = some s') :
    ∃ k d, ∃ ts : List Task, s'.tasks = s.tasks ++ ts ∧ ts.Sublist (a.tasks s k d) := by
  have none (k d : ℕ) : ∃ k d, ∃ ts : List Task, s.tasks = s.tasks ++ ts ∧
      ts.Sublist (a.tasks s k d) := ⟨k, d, [], (List.append_nil _).symm, List.nil_sublist _⟩
  cases a <;> simp only [Action.isTap, reduceCtorEq] at ha <;> simp only [step] at h
  case back =>
    split_ifs at h
    exact Option.some.inj h ▸ none 0 0
  case doneOTP =>
    split at h
    · next k d st hst =>
      obtain rfl := Option.some.inj h
      exact ⟨k, d, _, rfl, List.Sublist.refl _⟩
    · cases h
  case pickDrawerImage k =>
    split_ifs at h
    obtain ⟨k', st, -, rfl⟩ := App.onTop_eq_some h
    exact ⟨k, 0, _, rfl, List.Sublist.refl _⟩
  all_goals obtain ⟨k, st, -, rfl⟩ := App.onTop_eq_some h
  case continueProfile =>
    refine ⟨k, 0, _, rfl, ?_⟩
    split
    · exact List.Sublist.refl _
    · exact (List.nil_sublist _).cons_cons _
  all_goals exact ⟨k, 0, _, rfl, List.Sublist.refl _⟩

end

/-! ## Weights -/

/-- The weight of the callback that an answer starts. -/
def Write.weight (w : Task → ℕ) (x : Write) : ℕ := max (x.onDone.elim 0 w) (x.onError.elim 0 w)

/-- The weight of all that is under way; an answer to a write weighs `v`. -/
def App.weight (w : Task → ℕ) (v : ℕ) (s : App) : ℕ :=
  (s.tasks.map w).sum + (s.pending.map fun x => v + x.weight w).sum

section
variable {debug : Bool} {s s' : App} {t : Task} {r : Reply} {a : Action} (w : Task → ℕ) (v : ℕ)

/-- A continuation trades the weight of its task for what it starts and issues. -/
theorem weight_resume {i : ℕ} (ht : s.tasks[i]? = some t)
    (hr : App.resume debug (s.dequeue i) t r = some s') :
    ∃ (ts : List Task) (x : Option Write), ts.Sublist (t.successors (s.dequeue i) r) ∧
      s'.issued = s.issued ++ x.toList.map Write.content ∧ (∀ y ∈ x, t.Issues s y ∧ r = .done) ∧
      s'.weight w v + w t = s.weight w v + (ts.map w).sum + x.elim 0 fun y => v + y.weight w := by
  obtain ⟨ts, hts, hsub⟩ := resume_successors hr
  obtain ⟨x, hp, hi, hx⟩ := (App.resume_resumed hr).issued_eq
  refine ⟨ts, x, hsub, hi, hx, ?_⟩
  have hsum := Budget.sum_eraseIdx w ht
  have hxs : (x.toList.map fun y => v + y.weight w).sum = x.elim 0 fun y => v + y.weight w := by
    cases x <;> simp
  simp only [App.weight, hts, hp, List.map_append, List.sum_append, App.dequeue_tasks,
    App.dequeue_pending, hxs]
  omega

theorem weight_tap (ha : a.isTap) (h : step debug s a = some s') :
    ∃ k d, ∃ ts : List Task, ts.Sublist (a.tasks s k d) ∧
      s'.weight w v = s.weight w v + (ts.map w).sum := by
  obtain ⟨k, d, ts, hts, hsub⟩ := tap_tasks ha h
  refine ⟨k, d, ts, hsub, ?_⟩
  simp only [App.weight, hts, (App.step_tap ha h).pending, List.map_append, List.sum_append]
  omega

/-- An answered write leaves its callback. -/
theorem weight_answer {j : ℕ} {x : Write} (hx : s.pending[j]? = some x) {c : Option Task}
    (hc : c.elim 0 w ≤ x.weight w) :
    v + ((s.tasks ++ c.toList).map w).sum +
      ((s.pending.eraseIdx j).map fun y => v + y.weight w).sum ≤ s.weight w v := by
  have hsum := Budget.sum_eraseIdx (fun y : Write => v + y.weight w) hx
  have hcs : (c.toList.map w).sum = c.elim 0 w := by cases c <;> simp
  simp only [App.weight, List.map_append, List.sum_append, hcs]
  omega

theorem weight_relaunch :
    s.relaunch.weight w v ≤ s.weight w v + w (.navigatePage s.nextKey) := by
  have hp : ((s.pending.map fun x => { x with onDone := none, onError := none }).map
      fun y => v + y.weight w).sum ≤ (s.pending.map fun y => v + y.weight w).sum := by
    rw [List.map_map]
    refine List.sum_le_sum fun y _ => ?_
    simp [Write.weight]
  simp only [App.weight, App.relaunch_tasks, App.relaunch_pending, List.map_singleton,
    List.sum_singleton]
  omega

end

/-! ## Writes -/

/-- The kinds of writes, with the mailbox of a request. -/
inductive Kind where
  | registration
  | location
  | picture
  | laborRequest (key : String)
  | fromUser (key : String)
  deriving DecidableEq

def Site.kind : Site → Kind
  | .registration _ => .registration
  | .location _ => .location
  | .picture _ => .picture
  | .laborRequest key => .laborRequest key
  | .fromUser key _ => .fromUser key

/-- The writes that a marker tap is made for. -/
def Labor.kinds (l : Labor) : List Kind :=
  match l.key with
  | some key => [.laborRequest key, .fromUser key]
  | none => []

/-- The writes that an operation has before it. -/
def Task.kinds : Task → List Kind
  | .uploadPic .. | .addPhoneNumber .. => [.registration]
  | .locationPrefs .. | .locationUserId .. | .locationStore .. => [.location]
  | .tap labor _ => labor.kinds
  | .tapHeader key _ _ | .tapProfile key _ _ => [.fromUser key]
  | .drawerImage .. | .drawerUpload .. | .picUser .. | .picUpdate .. | .picUpdated ..
  | .picQuery .. => [.picture]
  | _ => []

/-- The writes that the user asks for by a tap. -/
def Action.kinds : Action → List Kind
  | .continueProfile => [.registration]
  | .continueLocation | .proceed => [.location]
  | .pickDrawerImage _ => [.picture]
  | .tapMarker labor => labor.kinds
  | _ => []

/-- The number of writes of a kind that a device has issued. -/
def App.writes (s : App) (κ : Kind) : ℕ := (s.issued.map fun x => x.1.kind).count κ

/-- The number of writes of a kind that an operation has before it. -/
def Task.ahead (κ : Kind) (t : Task) : ℕ := t.kinds.count κ

section
variable {debug : Bool} {s s' : App} {t : Task} {r : Reply} {a : Action} (κ : Kind)

/-- An operation goes on with the writes that it has before it. -/
theorem ahead_successors : ((t.successors s r).map (Task.ahead κ)).sum ≤ t.ahead κ := by
  unfold Task.successors
  split
  case h_16 k who uid => cases k <;> simp [Task.ahead, Task.kinds]
  case h_22 u who => cases s.auth <;> simp [Task.ahead, Task.kinds]
  all_goals simp [Task.ahead, Task.kinds]

/-- An operation that has issued its write goes on with none. -/
theorem ahead_after_issue {x : Write} (hx : t.Issues s x) :
    ((t.successors s r).map (Task.ahead κ)).sum = 0 := by
  cases t <;> simp only [Task.Issues] at hx
  case locationStore k who uid => cases r <;> cases k <;> rfl
  all_goals cases r <;> rfl

/-- A write is one of those that its operation has before it, and its callback
    has the rest of them. -/
theorem ahead_issues {x : Write} (hx : t.Issues s x) :
    [x.site.kind].count κ + x.weight (Task.ahead κ) = t.ahead κ := by
  cases t <;> simp only [Task.Issues] at hx
  case addPhoneNumber => subst hx; rfl
  case locationStore => subst hx; rfl
  case tap labor who =>
    obtain ⟨key, hkey, rfl⟩ := hx
    have hk : labor.kinds = [.laborRequest key] ++ [.fromUser key] := by
      rw [Labor.kinds, show labor.key = some key from hkey]
      rfl
    rw [Task.ahead, Task.kinds, hk, List.count_append]
    exact congrArg _ (Nat.max_self _)
  case tapProfile => obtain ⟨u, -, d, -, rfl⟩ := hx; rfl
  case picQuery => obtain ⟨p, -, rfl⟩ := hx; rfl

theorem ahead_tasks (k d : ℕ) : ((a.tasks s k d).map (Task.ahead κ)).sum ≤ a.kinds.count κ := by
  unfold Action.tasks
  split <;> simp [Action.kinds, Task.ahead, Task.kinds]

theorem writes_of_issued (h : s'.issued = s.issued) : s'.writes κ = s.writes κ := by
  rw [App.writes, h, App.writes]

/-- **The books of the kinds.**  What is issued and what is under way of a kind
    grows by no more than the user asks for. -/
theorem writes_step (h : step debug s a = some s') :
    s'.writes κ + s'.weight (Task.ahead κ) 0 ≤
      s.writes κ + s.weight (Task.ahead κ) 0 + a.kinds.count κ := by
  -- only a completion issues a write
  have quiet (ha : ∀ i r, a ≠ .resume i r) : s'.writes κ = s.writes κ :=
    writes_of_issued κ ((issued_step h).resolve_right fun ⟨i, _, _, hi, _⟩ => ha i _ hi)
  cases App.step_stepped h with
  | tap ha ht =>
    obtain ⟨k, d, ts, hsub, hw⟩ := weight_tap (Task.ahead κ) 0 ha h
    have hts := Budget.sum_le_of_sublist (Task.ahead κ) hsub
    have hk := ahead_tasks (s := s) (a := a) κ k d
    have hl := quiet fun i r hi => by rw [hi] at ha; cases ha
    omega
  | relaunch =>
    have hw := weight_relaunch (s := s) (Task.ahead κ) 0
    have hl := quiet (by simp)
    have hn : Task.ahead κ (.navigatePage s.nextKey) = 0 := rfl
    omega
  | dispose => exact Nat.le_add_right _ _
  | located p =>
    have hl := quiet (by simp)
    have hw : ((s.emit (.position p)).setGlobal (UserLocation.onPosition p)).weight
      (Task.ahead κ) 0 = s.weight (Task.ahead κ) 0 := rfl
    omega
  | @geocode k p =>
    have hl := quiet (by simp)
    have hw : ((s.emit (.position p)).spawn (.geocode k p)).weight (Task.ahead κ) 0 =
        s.weight (Task.ahead κ) 0 := by
      simp [App.weight, Task.ahead, Task.kinds]
    omega
  | @resume i r t _ ht hr =>
    obtain ⟨ts, x, hsub, hi, hx, hw⟩ := weight_resume (Task.ahead κ) 0 ht hr
    have hts := Budget.sum_le_of_sublist (Task.ahead κ) hsub
    have hl : s'.writes κ = s.writes κ + (x.toList.map fun y => y.site.kind).count κ := by
      rw [App.writes, hi, List.map_append, List.count_append, List.map_map]
      rfl
    cases x with
    | none =>
      have hk := ahead_successors (s := s.dequeue i) (t := t) (r := r) κ
      simp only [Option.toList_none, List.map_nil, List.count_nil, Option.elim_none] at hl hw
      omega
    | some y =>
      have hy := ahead_issues κ (hx y rfl).1
      have hk := ahead_after_issue (s := s.dequeue i) (r := r) κ (hx y rfl).1
      simp only [Option.toList_some, List.map_singleton, Option.elim_some] at hl hw
      omega
  | @commit j x hx =>
    have hw := weight_answer (Task.ahead κ) 0 hx (c := x.onDone) (le_max_left _ _)
    have hl := quiet (by simp)
    have hc : ((s.answer j).commit x).weight (Task.ahead κ) 0 =
        ((s.tasks ++ x.onDone.toList).map (Task.ahead κ)).sum +
          ((s.pending.eraseIdx j).map fun y => 0 + y.weight (Task.ahead κ)).sum := rfl
    omega
  | @reject j x hx =>
    have hw := weight_answer (Task.ahead κ) 0 hx (c := x.onError) (le_max_right _ _)
    have hl := quiet (by simp)
    have hc : ((s.answer j).spawnAll x.onError.toList).weight (Task.ahead κ) 0 =
        ((s.tasks ++ x.onError.toList).map (Task.ahead κ)).sum +
          ((s.pending.eraseIdx j).map fun y => 0 + y.weight (Task.ahead κ)).sum := rfl
    omega

end

/-! ## Completions -/

/-- The completions and answers that a task has before it, at most. -/
def Task.rank : Task → ℕ
  | .navigatePage _ | .messagingToken _ | .verifyPhone _ | .profileImage _ | .validityState _
  | .readData _ | .geocode .. | .animation _ | .locationDone .. => 1
  | .messagingUserId _ | .signIn .. | .facebook .. | .addPhoneNumberDone .. | .tapProfile ..
  | .picQuery .. => 2
  | .signInCredential _ | .facebookCredential _ | .locationStore .. | .tapHeader ..
  | .picUpdated .. => 3
  | .signInPrefs _ | .facebookLogIn _ | .addPhoneNumber .. | .locationUserId .. | .picUpdate .. => 4
  | .done .. | .uploadPic .. | .locationPrefs .. | .tap .. | .picUser .. => 5
  | .doneUser .. | .drawerUpload .. => 6
  | .drawerImage .. => 7

/-- The completions and answers that are under way. -/
def App.work (s : App) : ℕ := s.weight Task.rank 1

/-- Firebase's calls back, which it makes as often as it likes. -/
def Reply.isCallback : Reply → Bool
  | .codeSent | .verificationCompleted => true
  | _ => false

/-- Firebase completes a verification by itself. -/
def Action.isVerified : Action → Bool
  | .resume _ .verificationCompleted => true
  | _ => false

/-- A future completes, or the backend answers. -/
def Action.isCompletion : Action → Bool
  | .resume _ r => !r.isCallback
  | .commit _ | .reject _ => true
  | _ => false

/-- The completions that an action of the user, the device or Firebase starts, at most. -/
def Action.income : Action → ℕ
  | .relaunch | .buildAnimation | .continuePhone | .pickProfileImage | .position .. => 1
  | .openEnterNumber => 2
  | .facebookSignIn => 4
  | .continueLocation | .proceed | .tapMarker _ => 5
  | .doneOTP | .continueProfile => 6
  | .pickDrawerImage _ => 7
  | .resume _ .verificationCompleted => 4
  | _ => 0

section
variable {debug : Bool} {s s' : App} {t : Task} {r : Reply} {a : Action}

theorem rank_pos (t : Task) : 0 < t.rank := by
  cases t <;> simp [Task.rank]

/-- A completion is one of those that its task has before it. -/
theorem rank_successors (hr : r.isCallback = false) :
    ((t.successors s r).map Task.rank).sum + 1 ≤ t.rank := by
  unfold Task.successors
  split
  case h_16 k who uid => cases k <;> simp [Task.rank]
  case h_22 u who => cases s.auth <;> simp [Task.rank]
  case h_2 | h_3 => cases hr
  case h_23 => exact rank_pos t
  all_goals simp [Task.rank]

/-- So is the answer to the write that it issues. -/
theorem rank_issues {x : Write} (hx : t.Issues s x) :
    ((t.successors s .done).map Task.rank).sum + 1 + (1 + x.weight Task.rank) ≤ t.rank := by
  cases t <;> simp only [Task.Issues] at hx
  case addPhoneNumber => subst hx; exact le_rfl
  case locationStore k who uid =>
    subst hx
    cases k <;> simp [Task.successors, Write.weight, Task.rank]
  case tap => obtain ⟨key, -, rfl⟩ := hx; exact le_rfl
  case tapProfile => obtain ⟨u, -, d, -, rfl⟩ := hx; exact le_rfl
  case picQuery => obtain ⟨p, -, rfl⟩ := hx; exact le_rfl

/-- Firebase's calls back go on, and may start a sign-in. -/
theorem rank_callback (hr : r.isCallback) :
    ((t.successors s r).map Task.rank).sum ≤ t.rank + (Action.resume 0 r).income := by
  cases r <;> simp only [Reply.isCallback, reduceCtorEq] at hr <;>
    cases t <;> simp [Task.successors, Task.rank, Action.income]

/-- The completions of a step's start. -/
theorem rank_tasks (k d : ℕ) : ((a.tasks s k d).map Task.rank).sum ≤ a.income := by
  unfold Action.tasks
  split <;> simp [Action.income, Task.rank]

/-- A completion leaves less to do, and any other action adds its income. -/
theorem work_step (h : step debug s a = some s') :
    s'.work + (if a.isCompletion then 1 else 0) ≤ s.work + a.income := by
  cases App.step_stepped h with
  | tap ha ht =>
    obtain ⟨k, d, ts, hsub, hw⟩ := weight_tap Task.rank 1 ha h
    have hts := Budget.sum_le_of_sublist Task.rank hsub
    have hk := rank_tasks (s := s) (a := a) k d
    have hn : a.isCompletion = false := by cases a <;> simp_all [Action.isTap, Action.isCompletion]
    rw [hn, App.work, App.work]
    simp only [Bool.false_eq_true, if_false]
    omega
  | relaunch => exact weight_relaunch (s := s) Task.rank 1
  | dispose => exact Nat.le_refl _
  | located => exact Nat.le_succ _
  | @geocode k p =>
    have hw : ((s.emit (.position p)).spawn (.geocode k p)).work = s.work + 1 := by
      simp only [App.work, App.weight, App.spawn_tasks, App.emit_tasks, App.spawn_pending,
        App.emit_pending, List.map_append, List.sum_append, List.map_singleton, List.sum_singleton,
        Task.rank]
      omega
    exact hw.le
  | @resume i r t _ ht hr =>
    obtain ⟨ts, x, hsub, -, hx, hw⟩ := weight_resume Task.rank 1 ht hr
    have hts := Budget.sum_le_of_sublist Task.rank hsub
    cases x with
    | some y =>
      obtain ⟨hy, rfl⟩ := hx y rfl
      have hk := rank_issues (s := s.dequeue i) hy
      simp only [Option.elim_some] at hw
      simp only [App.work, Action.isCompletion, Reply.isCallback, Bool.not_false, if_true]
      omega
    | none =>
      simp only [Option.elim_none] at hw
      cases hc : r.isCallback with
      | true =>
        have hk := rank_callback (s := s.dequeue i) (t := t) hc
        simp only [App.work, Action.isCompletion, hc, Bool.not_true, Bool.false_eq_true, if_false]
        have hinc : (Action.resume 0 r).income = (Action.resume i r).income := by cases r <;> rfl
        omega
      | false =>
        have hk := rank_successors (s := s.dequeue i) (t := t) hc
        simp only [App.work, Action.isCompletion, hc, Bool.not_false, if_true]
        omega
  | @commit j x hx =>
    have hw := weight_answer Task.rank 1 hx (c := x.onDone) (le_max_left _ _)
    have hc : ((s.answer j).commit x).weight Task.rank 1 =
        ((s.tasks ++ x.onDone.toList).map Task.rank).sum +
          ((s.pending.eraseIdx j).map fun y => 1 + y.weight Task.rank).sum := rfl
    simp only [Action.isCompletion, if_true, App.work]
    omega
  | @reject j x hx =>
    have hw := weight_answer Task.rank 1 hx (c := x.onError) (le_max_right _ _)
    have hc : ((s.answer j).spawnAll x.onError.toList).weight Task.rank 1 =
        ((s.tasks ++ x.onError.toList).map Task.rank).sum +
          ((s.pending.eraseIdx j).map fun y => 1 + y.weight Task.rank).sum := rfl
    simp only [Action.isCompletion, if_true, App.work]
    omega

/-- The app left alone: futures complete, Firebase calls back, the backend answers
    and pages are disposed of, but there is no tap, no position and no restart. -/
def settle (debug : Bool) (s : App) (a : Action) : Option App :=
  match a with
  | .resume .. | .commit _ | .reject _ | .dispose _ => step debug s a
  | _ => none

/-- Left alone, the app gets work from the verifications that Firebase completes,
    and is asked for no write. -/
theorem step_of_settle (h : settle debug s a = some s') :
    step debug s a = some s' ∧ (a.income = 4 * if a.isVerified then 1 else 0) ∧ a.kinds = [] := by
  unfold settle at h
  split at h
  case h_1 i r => exact ⟨h, by cases r <;> rfl, rfl⟩
  case h_5 => cases h
  all_goals exact ⟨h, rfl, rfl⟩

/-- **Every operation ends.**  Left alone in any state, in whatever order and with
    whatever replies, the app handles no more completions and answers than it has
    under way, and four for each verification that Firebase completes; and it issues
    no more writes of a kind than the operations under way have before them. -/
theorem settle_terminates {as : List Action} (hr : run (settle debug) s as = some s') :
    as.countP Action.isCompletion + s'.work ≤ s.work + 4 * as.countP Action.isVerified ∧
      ∀ κ, s'.writes κ + s'.weight (Task.ahead κ) 0 ≤ s.writes κ + s.weight (Task.ahead κ) 0 := by
  constructor
  · have h := Budget.run_le (Φ := App.work) (c := fun a => if a.isCompletion then 1 else 0)
      (g := fun a => 4 * if a.isVerified then 1 else 0) (fun s a s' hs => ?_) hr
    · rwa [List.sum_map_mul_left, Shared.sum_eq_countP, Shared.sum_eq_countP] at h
    · obtain ⟨hs, hi, -⟩ := step_of_settle hs
      exact hi ▸ work_step hs
  · intro κ
    let I (t : App) : Prop :=
      t.writes κ + t.weight (Task.ahead κ) 0 ≤ s.writes κ + s.weight (Task.ahead κ) 0
    refine run_invariant' (I := I) (fun t a t' h hs => ?_) (le_refl _) hr
    obtain ⟨hs, -, hk⟩ := step_of_settle hs
    have hw := writes_step κ hs
    rw [hk, List.count_nil] at hw
    exact hw.trans h

/-- A user starts to verify a number, goes back, signs in with Facebook and taps
    Continue twice; one of the two pictures is uploaded and its registration issued. -/
def busy : List Action :=
  [.resume 0 .done, .openEnterNumber, .continuePhone, .back, .facebookSignIn, .resume 2 .done,
    .resume 2 (.credential "A"), .resume 2 .done, .pickProfileImage, .resume 2 .done,
    .continueProfile, .continueProfile, .resume 3 (.url "a"), .resume 5 .done]

/-- The verification completes, the other picture is uploaded and registered with,
    the second registration is rejected, and a form is accepted. -/
def settling : List Action :=
  [.resume 1 .verificationCompleted, .commit 0, .resume 3 (.url "b"), .resume 6 .done, .reject 0,
    .resume 1 (.form "Ahmad" "03001234567")]

theorem settle_terminates_busy :
    ∃ s s', run (step true) (App.launch [] ∅) busy = some s ∧
      run (settle true) s settling = some s' ∧
      settling.countP Action.isCompletion + s'.work ≤
        s.work + 4 * settling.countP Action.isVerified ∧
      ∀ κ, s'.writes κ + s'.weight (Task.ahead κ) 0 ≤ s.writes κ + s.weight (Task.ahead κ) 0 :=
  ⟨_, _, rfl, rfl, @settle_terminates true _ _ settling rfl⟩

end

/-- The work that an action adds. -/
def Action.charge (a : Action) : ℤ := a.income - if a.isCompletion then 1 else 0

theorem sum_charge (as : List Action) :
    (as.map Action.charge).sum = (as.map Action.income).sum - as.countP Action.isCompletion := by
  induction as with
  | nil => rfl
  | cons a as ih =>
    rw [List.map_cons, List.sum_cons, ih, List.map_cons, List.sum_cons, List.countP_cons,
      Action.charge]
    push_cast
    ring

section
variable {debug : Bool} {ι : Type} [DecidableEq ι] {accounts : List Uid} {store : Store}
  {n : Fleet ι} {as : List (ι × Action)}

/-- **No write unasked.**  In every run of a fleet, whatever completes in which
    order and whatever is retried or killed, a device has issued at most as many
    writes of a kind as its own user has made taps for, less those that are still
    under way. -/
theorem writes_le_taps (hr : run (Fleet.step debug) (Fleet.launch accounts store) as = some n)
    (i : ι) (κ : Kind) :
    (n.app i).writes κ + (n.app i).weight (Task.ahead κ) 0 ≤
      ((Shared.actionsOf i as).map fun a => a.kinds.count κ).sum := by
  have h : (n.app i).writes κ + (n.app i).weight (Task.ahead κ) 0 ≤ 0 + _ :=
    Shared.run_charge (M := device debug) (n := Fleet.launch accounts store)
      (J := fun s c => s.writes κ + s.weight (Task.ahead κ) 0 ≤ c)
      (f := fun a => a.kinds.count κ)
      (fun _ _ _ _ h hs => (writes_step κ hs).trans (Nat.add_le_add_right h _))
      (fun _ _ _ h => h) le_rfl hr
  rwa [Nat.zero_add] at h

theorem writes_twoDevices :
    ∃ n : Fleet ℕ, run (Fleet.step true) (Fleet.launch [] ∅) twoDevices = some n ∧
      (n.app 0).writes (.fromUser "Mason7") +
          (n.app 0).weight (Task.ahead (.fromUser "Mason7")) 0 ≤
        ((Shared.actionsOf 0 twoDevices).map fun a => a.kinds.count (.fromUser "Mason7")).sum :=
  ⟨_, rfl, @writes_le_taps true ℕ _ [] ∅ _ twoDevices rfl 0 (.fromUser "Mason7")⟩

/-- **No work unasked.**  In every run of a fleet the futures that have completed
    on a device and the answers that it has got, with those that are under way, are
    bounded by what its user, its sensors and Firebase have set going. -/
theorem work_le_income (hr : run (Fleet.step debug) (Fleet.launch accounts store) as = some n)
    (i : ι) :
    (Shared.actionsOf i as).countP Action.isCompletion + (n.app i).work ≤
      1 + ((Shared.actionsOf i as).map Action.income).sum := by
  have h : ((n.app i).work : ℤ) ≤ 1 + _ :=
    Shared.run_charge (M := device debug) (n := Fleet.launch accounts store)
      (J := fun s (c : ℤ) => (s.work : ℤ) ≤ c) (f := Action.charge) (fun s c a s' h hs => ?_)
      (fun _ _ _ h => h) le_rfl hr
  · rw [sum_charge] at h
    omega
  · have hw := work_step hs
    rw [Action.charge]
    split_ifs with hc <;> simp only [hc, if_true] at hw <;> omega

theorem work_twoDevices :
    ∃ n : Fleet ℕ, run (Fleet.step true) (Fleet.launch [] ∅) twoDevices = some n ∧
      (Shared.actionsOf 0 twoDevices).countP Action.isCompletion + (n.app 0).work ≤
        1 + ((Shared.actionsOf 0 twoDevices).map Action.income).sum :=
  ⟨_, rfl, @work_le_income true ℕ _ [] ∅ _ twoDevices rfl 0⟩

end
end Mazdoor
