/-
  What a step of the app leaves alone.

  Each part of the state is written by few tasks and by few actions.

  * `resume_resumed`: a continuation is a sequence of operations on the state
    (`Resumed`); the navigator, the signed-in account with its key, and the
    writes are changed only by the tasks that `Task.navigates`, `Task.signsIn`
    and `Task.Issues` name, and no task changes the backend itself;
  * `tap_of_step`, `step_tap`: the taps of the user (`Action.isTap`) only start
    tasks, move on the stack and create states (`Tap`, `Tapped`);
  * `step_stepped`: a step, by the kind of its action (`Stepped`);
  * `onTop_eq_some`, `withContext_cases`: the guards of taps and contexts;
  * `App.committed`: the writes that the backend has applied (`committed_step`).
-/
import Mazdoor.Step

namespace Mazdoor

/-- Tasks that a new screen starts. -/
def Task.isInit : Task → Bool
  | .navigatePage _ | .messagingUserId _ | .readData _ | .animation _ => true
  | _ => false

/-- The `State` whose `setState` or controller a pending task goes on to use. -/
def Task.host : Task → Option ℕ
  | .messagingUserId k | .messagingToken k | .profileImage k | .uploadPic k _ | .readData k
  | .geocode k _ | .drawerImage k _ | .drawerUpload k _ | .animation k => some k
  | _ => none

/-- The closures that a task hands to `setState`: only a geocoded position is a new location. -/
def Task.Assigns (t : Task) (f : Globals → Globals) : Prop :=
  (∃ k p, t = .geocode k p) ∨ ∀ g, (f g).userAddress = g.userAddress ∧
    (f g).userLatitude = g.userLatitude ∧ (f g).userLongitude = g.userLongitude

/-- Tasks whose continuation uses the navigator. -/
def Task.navigates : Task → Bool
  | .navigatePage _ | .verifyPhone _ | .done .. | .signIn .. | .facebook .. |
    .addPhoneNumberDone .. | .locationDone .. => true
  | _ => false

/-- The tasks that the continuation of `t` starts itself. -/
def Task.Spawns (s : App) (t : Task) (r : Reply) (t' : Task) : Prop :=
  match t, r with
  | .messagingUserId k, .done => t' = .messagingToken k
  | .verifyPhone k, .codeSent => t' = .verifyPhone k
  | .verifyPhone k, .verificationCompleted => t' = .verifyPhone k ∨ t' = .signInPrefs k
  | .doneUser k d, .done => t' = .done k d s.auth
  | .done k _ none, .done => t' = .signInPrefs k
  | .signInPrefs k, .done => t' = .signInCredential k
  | .signInCredential k, .credential uid => t' = .signIn k uid (s.isNewUser uid)
  | .facebookLogIn k, .done => t' = .facebookCredential k
  | .facebookCredential k, .credential uid => t' = .facebook k uid (s.isNewUser uid)
  | .uploadPic k who, .url _ => t' = .addPhoneNumber k who
  | .locationPrefs k who, .done => t' = .locationUserId k who
  | .locationUserId k who, .done => t' = .locationStore k who (functionUserId s.prefs)
  | .locationStore k who _, .done => ∃ k' ∈ k, t' = .locationDone k' who
  | .tapHeader key who uid, .done => t' = .tapProfile key who uid
  | .drawerImage k who, .done => t' = .drawerUpload k who
  | .drawerUpload _ who, .url u => t' = .picUser u who
  | .picUser u who, .done => t' = .picUpdate u who
  | .picUpdate u who, .done => t' = .picUpdated u who
  | .picUpdated u who, .done => ∃ uid ∈ s.auth, t' = .picQuery u uid who
  | _, _ => False

/-- A task of the `initState` of the mounted state `k`. -/
def App.Started (s : App) (k : ℕ) (t : Task) : Prop :=
  s.isMounted k ∧ ∃ sc, t ∈ App.initTasks k sc

/-- The actions of the user on the screen. -/
def Action.isTap : Action → Bool
  | .relaunch | .dispose _ | .position _ _ | .resume _ _ | .commit _ | .reject _ => false
  | _ => true

/-- The tasks that a tap starts, with the page that offers it and the signed-in account. -/
def Action.Starts (s : App) (a : Action) (t : Task) : Prop :=
  match a, t with
  | .facebookSignIn, .facebookLogIn k => s.stack.head? = some ⟨.signIn, k⟩
  | .continuePhone, .verifyPhone k => s.stack.head? = some ⟨.enterNumber, k⟩
  | .doneOTP, .doneUser k d => s.stack.head? = some ⟨.smsOTPDialog k, d⟩
  | .pickProfileImage, .profileImage k | .continueProfile, .validityState k =>
    s.stack.head? = some ⟨.userProfile, k⟩
  | .continueProfile, .uploadPic k who => s.stack.head? = some ⟨.userProfile, k⟩ ∧ who = s.auth
  | .continueLocation, .locationPrefs (some k) who =>
    s.stack.head? = some ⟨.userLocation, k⟩ ∧ who = s.auth
  | .pickDrawerImage _, .drawerImage k who => ⟨.sideMenu, k⟩ ∈ s.mounted ∧ who = s.auth
  | .proceed, .locationPrefs none who => who = s.auth
  | .tapMarker labor, .tap labor' who => labor' = labor ∧ who = s.auth
  | _, _ => False

/-- The events of the backend. -/
def Event.isBackend : Event → Bool
  | .committed .. | .created .. => true
  | _ => false

/-- The events of what is read and shown. -/
def Event.isShown : Event → Bool
  | .located .. | .greeting _ | .picture _ | .placemarks .. => true
  | _ => false

theorem Event.isBackend_of_isShown {e : Event} (h : e.isShown) : e.isBackend = false := by
  cases e <;> simp_all [Event.isShown, Event.isBackend]

/-- Tasks that an answered write starts. -/
def Task.isCallback : Task → Bool
  | .addPhoneNumberDone .. | .tapHeader .. => true
  | _ => false

/-- The fields that the site of a write puts into it. -/
def Write.FieldsOfSite (w : Write) : Prop :=
  match w.site with
  | .registration _ => ∃ g, w.fields = registrationFields g
  | .location _ => ∃ g, w.fields = locationFields g
  | .picture _ => ∃ u, w.fields = pictureFields u
  | .laborRequest _ => ∃ l, w.fields = laborRequestFields l
  | .fromUser _ _ => ∃ d, w.fields = fromUserFields d

/-- A write as its site builds it. -/
structure Write.Formed (w : Write) : Prop where
  fields : w.FieldsOfSite
  callbacks : ∀ t, t ∈ w.onDone ∨ t ∈ w.onError → t.isCallback

/-- The tasks that an action `a` adds. -/
inductive App.Fresh (s : App) (a : Action) (s' : App) : Task → Prop
  | spawned (i : ℕ) (r : Reply) {t t' : Task} (ha : a = .resume i r) (ht : t ∈ s.tasks[i]?)
    (h : t.Spawns s r t') : Fresh s a s' t'
  | started {t' : Task} (h : s'.Started s.nextKey t') : Fresh s a s' t'
  | done (j : ℕ) {w : Write} {t' : Task} (ha : a = .commit j) (hw : w ∈ s.pending[j]?)
    (h : t' ∈ w.onDone) : Fresh s a s' t'
  | error (j : ℕ) {w : Write} {t' : Task} (ha : a = .reject j) (hw : w ∈ s.pending[j]?)
    (h : t' ∈ w.onError) : Fresh s a s' t'
  | tapped {t' : Task} (ha : a.isTap) (h : a.Starts s t') : Fresh s a s' t'
  | geocode {k : ℕ} {p : Position} (hk : s'.isMounted k) (hp : .position p ∈ s'.log) :
    Fresh s a s' (.geocode k p)

/-- The write that the continuation of `t` hands to Firestore. -/
def Task.Issues (s : App) (t : Task) (w : Write) : Prop :=
  match t with
  | .addPhoneNumber k who => w = ⟨.registration (s.docId s.prefs.currentUserId),
      registrationFields s.global, some (.addPhoneNumberDone k who), none⟩
  | .locationStore _ _ uid => w = ⟨.location (s.docId uid), locationFields s.global, none, none⟩
  | .tap labor who => ∃ key ∈ labor.key, w = ⟨.laborRequest key, laborRequestFields labor,
      some (.tapHeader key who s.prefs.currentUserId), some (.tapHeader key who s.prefs.currentUserId)⟩
  | .tapProfile key _ uid => ∃ u ∈ uid, ∃ d ∈ s.profile (.name u),
      w = ⟨.fromUser key (.name u), fromUserFields d, none, none⟩
  | .picQuery u uid _ => ∃ p ∈ DocStore.query s.store [.name "Users_Info"] "uid" (.str uid),
      w = ⟨.picture (p.getLast?.getD (.name "")), pictureFields u, none, none⟩
  | _ => False

theorem Task.Issues.formed {s : App} {t : Task} {w : Write} (h : t.Issues s w) : w.Formed := by
  cases t <;> simp only [Task.Issues] at h
  case addPhoneNumber => subst h; exact ⟨⟨_, rfl⟩, by simp [Task.isCallback]⟩
  case locationStore => subst h; exact ⟨⟨_, rfl⟩, by simp⟩
  case tap => obtain ⟨key, -, rfl⟩ := h; exact ⟨⟨_, rfl⟩, by simp [Task.isCallback]⟩
  case tapProfile => obtain ⟨u, -, d, -, rfl⟩ := h; exact ⟨⟨_, rfl⟩, by simp⟩
  case picQuery => obtain ⟨p, -, rfl⟩ := h; exact ⟨⟨_, rfl⟩, by simp⟩

/-- The account that started the operation of a task that issues a write. -/
def Task.startedBy : Task → Option (Option Uid)
  | .addPhoneNumber _ who | .locationStore _ who _ | .tap _ who | .tapProfile _ who _
  | .picQuery _ _ who => some who
  | _ => none

/-- Tasks whose continuation changes the signed-in account or its key. -/
def Task.signsIn : Task → Bool
  | .signInCredential _ | .signIn .. | .facebookCredential _ | .facebook .. => true
  | _ => false

namespace App

theorem isMounted_iff {s : App} {k : ℕ} : s.isMounted k ↔ ∃ e ∈ s.mounted, e.key = k := by
  simp [isMounted]

theorem isMounted_mono {s s' : App} (h : s.mounted ⊆ s'.mounted) {k : ℕ} (hk : s.isMounted k) :
    s'.isMounted k := by
  obtain ⟨e, he, hk⟩ := isMounted_iff.1 hk
  exact isMounted_iff.2 ⟨e, h he, hk⟩

theorem isInit_of_mem_initTasks {k : ℕ} {sc : Screen} {t : Task} (h : t ∈ initTasks k sc) :
    t.isInit := by
  cases sc <;> simp only [initTasks, List.not_mem_nil, List.mem_singleton] at h <;> subst h <;> rfl

theorem mem_eraseIdx_of_ne {α : Type*} {l : List α} {i : ℕ} {x y : α} (hx : l[i]? = some x)
    (hy : y ∈ l) (hne : y ≠ x) : y ∈ l.eraseIdx i := by
  obtain ⟨j, hj⟩ := List.mem_iff_getElem?.1 hy
  refine List.mem_eraseIdx_iff_getElem?.2 ⟨j, fun hij => hne ?_, hj⟩
  subst hij
  exact Option.some.inj (hj.symm.trans hx)

/-- An entry of what was added to `l`, and the list without it. -/
theorem eraseIdx_since {α : Type*} {l m xs : List α} {i : ℕ} {x : α} (h : xs = l ++ m)
    (hi : l.length ≤ i) (hx : xs[i]? = some x) :
    ∃ n, m[n]? = some x ∧ xs.eraseIdx i = l ++ m.eraseIdx n := by
  subst h
  refine ⟨i - l.length, ?_, List.eraseIdx_append_of_length_le hi m⟩
  rw [← hx, List.getElem?_append_right hi]

/-! ## Guards -/

theorem withContext_cases (s : App) (k : ℕ) (f : App → App) :
    (s.isMounted k ∧ s.withContext k f = f s) ∨ s.withContext k f = s := by
  unfold withContext
  split
  · exact Or.inl ⟨‹_›, rfl⟩
  · exact Or.inr rfl

theorem onTop_eq_some {s s' : App} {sc : Screen} {f : ℕ → App} (h : s.onTop sc f = some s') :
    ∃ k st, s.stack = ⟨sc, k⟩ :: st ∧ s' = f k := by
  unfold onTop at h
  split at h
  · cases h
  · next e st hs =>
    split_ifs at h with he
    exact ⟨e.key, st, he ▸ hs, (Option.some.inj h).symm⟩

section
variable {debug : Bool} {s s' : App} {t : Task} {r : Reply} {a : Action}

/-! ## Frames of a continuation -/

theorem eq_of_mem_stateError {k : ℕ} {e : Event} (h : e ∈ s.stateError k) :
    e = .setStateAfterDispose k := by
  unfold stateError at h
  split at h
  · cases h
  · exact List.mem_singleton.1 h

/-- What the continuation of `t` on the reply `r` does to `s`, one operation after
    the other. -/
inductive Resumed (debug : Bool) (s : App) (t : Task) (r : Reply) : App → Prop
  | idle : Resumed debug s t r s
  | spawnAll {s' : App} {ts : List Task} (h : Resumed debug s t r s')
    (hts : ∀ t' ∈ ts, t.Spawns s r t') : Resumed debug s t r (s'.spawnAll ts)
  | setState {s' : App} {f : Globals → Globals} (h : Resumed debug s t r s') (k : ℕ)
    (hk : k ∈ t.host) (hf : t.Assigns f) : Resumed debug s t r (s'.setState debug k f)
  | setImage {s' : App} (h : Resumed debug s t r s') (k : ℕ) (hk : k ∈ t.host)
    (picked : Bool) : Resumed debug s t r (s'.setImage debug k picked)
  | display {s' : App} {e : Event} (h : Resumed debug s t r s') (k : ℕ) (he : e.isShown) :
    Resumed debug s t r (s'.display k e)
  | emit {s' : App} {e : Event} (h : Resumed debug s t r s') (he : e.isShown) :
    Resumed debug s t r (s'.emit e)
  | forward {s' : App} (h : Resumed debug s t r s') (k : ℕ) (hk : k ∈ t.host)
    (hm : ¬ s'.isMounted k) : Resumed debug s t r (s'.emit (.forwardAfterDispose k))
  | document {s' : App} (h : Resumed debug s t r s') (id : Option Uid) :
    Resumed debug s t r (s'.document id)
  | issue {s' : App} {w : Write} {who : Option Uid} (h : Resumed debug s t r s')
    (hp : s'.pending = s.pending) (hr : r = .done) (hw : t.Issues s w)
    (hwho : t.startedBy = some who) : Resumed debug s t r (s'.issue w who)
  | saveForm {s' : App} (h : Resumed debug s t r s') (name phone : String) :
    Resumed debug s t r ({ s' with prefs := { s'.prefs with userName := some name } }.setGlobal
      ({ · with userName := some name, userPhoneNumber := some phone }))
  | authenticate {s' : App} (h : Resumed debug s t r s') (uid : Uid) (ht : t.signsIn) :
    Resumed debug s t r (s'.authenticate uid)
  | setUserId {s' : App} (h : Resumed debug s t r s') (uid : Uid) (ht : t.signsIn) :
    Resumed debug s t r (s'.setUserId uid)
  | pop {s' : App} (h : Resumed debug s t r s') (ht : t.navigates) : Resumed debug s t r s'.pop
  | push {s' : App} (h : Resumed debug s t r s') (sc : Screen) (ht : t.navigates)
    (hk : s'.nextKey = s.nextKey) : Resumed debug s t r (s'.push sc)
  | pushReplacement {s' : App} (h : Resumed debug s t r s') (sc : Screen) (ht : t.navigates)
    (hk : s'.nextKey = s.nextKey) : Resumed debug s t r (s'.pushReplacement sc)
  | pushAndRemoveAll {s' : App} (h : Resumed debug s t r s') (sc : Screen) (ht : t.navigates)
    (hk : s'.nextKey = s.nextKey) : Resumed debug s t r (s'.pushAndRemoveAll sc)

theorem Resumed.spawn {t' : Task} (h : Resumed debug s t r s') (ht : t.Spawns s r t') :
    Resumed debug s t r (s'.spawn t') :=
  h.spawnAll (List.forall_mem_singleton.2 ht)

theorem Resumed.withContext {k : ℕ} {f : App → App} (h : Resumed debug s t r s')
    (hf : Resumed debug s t r (f s')) : Resumed debug s t r (s'.withContext k f) := by
  rcases withContext_cases s' k f with ⟨-, hw⟩ | hw <;> rw [hw]
  · exact hf
  · exact h

/-- **Continuations**, operation by operation. -/
theorem resume_resumed (h : resume debug s t r = some s') : Resumed debug s t r s' := by
  have start : Resumed debug s t r s := .idle
  have keep {f : Globals → Globals} (hf : ∀ g, (f g).userAddress = g.userAddress ∧
      (f g).userLatitude = g.userLatitude ∧ (f g).userLongitude = g.userLongitude) :
      t.Assigns f := Or.inr hf
  unfold resume at h
  split at h <;> simp only [Option.some.injEq, reduceCtorEq] at h <;> subst h
  · exact start
  · exact start.withContext (start.pushAndRemoveAll _ rfl rfl)
  -- `EnterNumber`
  · exact start.spawn rfl
  · exact start.setState _ rfl (keep fun _ => ⟨rfl, rfl, rfl⟩)
  · exact (start.spawn rfl).withContext ((start.spawn rfl).push _ rfl rfl)
  · exact (start.spawn (Or.inl rfl)).spawn (Or.inr rfl)
  · exact start.spawn rfl
  · exact start.withContext ((start.pop rfl).push _ rfl rfl)
  · exact start.spawn rfl
  · exact start.spawn rfl
  · exact (start.authenticate _ rfl).spawn rfl
  · split
    · exact (start.setUserId _ rfl).pushReplacement _ rfl rfl
    · exact start
  · exact start.withContext ((start.pop rfl).pushReplacement _ rfl rfl)
  -- Facebook
  · exact start.spawn rfl
  · exact (start.authenticate _ rfl).spawn rfl
  · exact (start.setUserId _ rfl).withContext ((start.setUserId _ rfl).pushReplacement _ rfl rfl)
  · exact start.withContext (start.pushReplacement _ rfl rfl)
  -- the registration form
  · exact start.setImage _ rfl _
  · exact start.setImage _ rfl _
  · split
    · exact start.saveForm _ _
    · exact start
  · split
    · exact .spawn (start.setState _ rfl (keep fun _ => ⟨rfl, rfl, rfl⟩)) rfl
    · exact start.setState _ rfl (keep fun _ => ⟨rfl, rfl, rfl⟩)
  · exact (start.document _).issue rfl rfl rfl rfl
  · exact start.withContext (start.pushReplacement _ rfl rfl)
  -- the location
  · exact start.spawn rfl
  · exact start.spawn rfl
  · refine (((start.document _).issue rfl rfl rfl rfl).emit rfl).spawnAll fun t' ht' => ?_
    obtain ⟨k, hk, rfl⟩ := Option.map_eq_some_iff.1 (Option.mem_toList.1 ht')
    exact ⟨k, hk, rfl⟩
  · exact start.withContext (start.pushReplacement _ rfl rfl)
  · exact (start.setState _ rfl (keep fun _ => ⟨rfl, rfl, rfl⟩)).display _ rfl
  -- the map
  · exact (start.emit rfl).setState _ rfl (Or.inl ⟨_, _, rfl⟩)
  · split
    · next hk => exact start.issue rfl rfl ⟨_, hk, rfl⟩ rfl
    · exact start
  · exact (start.document _).spawn rfl
  · split
    · next u d hu =>
      obtain ⟨u', rfl, hd⟩ := Option.bind_eq_some_iff.1 hu
      obtain ⟨d', hd', hd⟩ := Option.map_eq_some_iff.1 hd
      obtain ⟨rfl, rfl⟩ := Prod.mk.inj hd
      exact start.issue rfl rfl ⟨u', rfl, d', hd', rfl⟩ rfl
    · exact start
  -- the drawer
  · split
    · exact .spawn (.display (start.setImage _ rfl _) _ rfl) rfl
    · exact .display (start.setImage _ rfl _) _ rfl
  · exact (start.setImage _ rfl _).display _ rfl
  · refine .display (.setState (start.spawn rfl) _ rfl (keep fun _ => ?_)) _ rfl
    exact ⟨rfl, rfl, rfl⟩
  · split
    · exact start.spawn rfl
    · exact start
  · exact start.spawn rfl
  · split
    · next hu => exact start.spawn ⟨_, hu, rfl⟩
    · exact start
  · split
    · next p hp => exact start.issue rfl rfl ⟨p, List.mem_of_mem_head? hp, rfl⟩ rfl
    · exact start
  · split
    · exact start
    · next hm => exact start.forward _ rfl hm

theorem Started.mono {k : ℕ} (h : s.Started k t) (hm : s.mounted ⊆ s'.mounted) :
    s'.Started k t :=
  ⟨isMounted_mono hm h.1, h.2⟩

theorem started_create {sc : Screen} (h : t ∈ initTasks s.nextKey sc) :
    (s.create sc).Started s.nextKey t :=
  ⟨isMounted_iff.2 ⟨_, List.mem_cons_self, rfl⟩, sc, h⟩

theorem mounted_pushReplacement (s : App) (sc : Screen) :
    s.mounted ⊆ (s.pushReplacement sc).mounted := by
  rw [pushReplacement_mounted]
  split
  · exact List.Subset.refl _
  · exact List.subset_cons_self _ _

theorem pushReplacement_tasks_cases {sc : Screen} (h : t ∈ (s.pushReplacement sc).tasks) :
    t ∈ s.tasks ∨ (s.pushReplacement sc).Started s.nextKey t := by
  refine (List.mem_append.1 h).imp id fun h => ?_
  split at h
  · cases h
  · next hs =>
    refine ⟨isMounted_iff.2 ⟨⟨sc, s.nextKey⟩, ?_, rfl⟩, sc, h⟩
    rw [pushReplacement_mounted, if_neg hs]
    exact List.mem_cons_self

namespace Resumed

/-- A continuation leaves the backend alone. -/
theorem store (h : Resumed debug s t r s') : s'.store = s.store := by
  induction h with
  | idle => rfl
  | _ => assumption

theorem stack (h : Resumed debug s t r s') (ht : t.navigates = false) : s'.stack = s.stack := by
  induction h with
  | idle => rfl
  | pop _ hn | push _ _ hn | pushReplacement _ _ hn | pushAndRemoveAll _ _ hn =>
    cases ht.symm.trans hn
  | _ => assumption

theorem session (h : Resumed debug s t r s') (ht : t.signsIn = false) :
    s'.auth = s.auth ∧ s'.accounts = s.accounts ∧
      s'.prefs.currentUserId = s.prefs.currentUserId := by
  induction h with
  | idle => exact ⟨rfl, rfl, rfl⟩
  | authenticate _ _ hn | setUserId _ _ hn => cases ht.symm.trans hn
  | _ => assumption

/-- A continuation disposes no `State`. -/
theorem mounted (h : Resumed debug s t r s') : s.mounted ⊆ s'.mounted := by
  induction h with
  | idle => exact List.Subset.refl _
  | push _ _ _ _ ih | pushAndRemoveAll _ _ _ _ ih => exact List.subset_cons_of_subset _ ih
  | pushReplacement _ sc _ _ ih => exact List.Subset.trans ih (mounted_pushReplacement _ sc)
  | _ => assumption

/-- **New tasks.**  The pending tasks after a continuation are the old ones,
    those that it spawns, and those of the state that it creates. -/
theorem tasks (h : Resumed debug s t r s') :
    ∀ t' ∈ s'.tasks, t' ∈ s.tasks ∨ t.Spawns s r t' ∨ s'.Started s.nextKey t' := by
  intro t'
  induction h with
  | idle => exact Or.inl
  | spawnAll _ hts ih =>
    intro ht'
    rcases List.mem_append.1 ht' with ht' | ht'
    · exact ih ht'
    · exact Or.inr (Or.inl (hts t' ht'))
  | push _ sc _ hk ih | pushAndRemoveAll _ sc _ hk ih =>
    intro ht'
    rcases List.mem_append.1 ht' with ht' | ht'
    · exact (ih ht').imp id (Or.imp id (Started.mono · (List.subset_cons_self _ _)))
    · exact Or.inr (Or.inr (hk ▸ started_create ht'))
  | pushReplacement _ sc _ hk ih =>
    intro ht'
    rcases pushReplacement_tasks_cases ht' with ht' | ht'
    · exact (ih ht').imp id (Or.imp id (Started.mono · (mounted_pushReplacement _ sc)))
    · exact Or.inr (Or.inr (hk ▸ ht'))
  | _ => assumption

theorem tasks_mono (h : Resumed debug s t r s') : s.tasks ⊆ s'.tasks := by
  induction h with
  | idle => exact List.Subset.refl _
  | spawnAll _ _ ih | push _ _ _ _ ih | pushReplacement _ _ _ _ ih | pushAndRemoveAll _ _ _ _ ih =>
    exact List.subset_append_of_subset_left _ ih
  | _ => assumption

/-- A continuation hands at most one write to Firestore. -/
theorem issues (h : Resumed debug s t r s') :
    s'.pending = s.pending ∨ r = .done ∧ ∃ w, s'.pending = s.pending ++ [w] ∧ t.Issues s w := by
  induction h with
  | idle => exact Or.inl rfl
  | issue _ hp hr hw => exact Or.inr ⟨hr, _, congrArg (· ++ [_]) hp, hw⟩
  | _ => assumption

/-- **Issued writes.**  What a continuation logs as issued is the write that it
    hands to Firestore, in the name of the account that started it. -/
theorem issued (h : Resumed debug s t r s') {site : Site} {fields : Fields} {who : Option Uid}
    (he : .issued site fields who ∈ s'.log) :
    .issued site fields who ∈ s.log ∨
      ∃ w, t.Issues s w ∧ w.site = site ∧ w.fields = fields ∧ t.startedBy = some who := by
  induction h with
  | idle => exact Or.inl he
  | setState _ _ _ _ ih | setImage _ _ _ _ ih =>
    rcases List.mem_append.1 he with he | he
    · exact ih he
    · cases eq_of_mem_stateError he
  | display _ _ hs ih =>
    rcases List.mem_append.1 he with he | he
    · exact ih he
    · split at he
      · cases List.mem_singleton.1 he
        cases hs
      · cases he
  | emit _ hs ih =>
    rcases List.mem_append.1 he with he | he
    · exact ih he
    · cases List.mem_singleton.1 he
      cases hs
  | forward _ _ _ _ ih =>
    rcases List.mem_append.1 he with he | he
    · exact ih he
    · cases List.mem_singleton.1 he
  | issue _ _ _ hw hwho ih =>
    rcases List.mem_append.1 he with he | he
    · exact ih he
    · obtain ⟨rfl, rfl, rfl⟩ := Event.issued.inj (List.mem_singleton.1 he)
      exact Or.inr ⟨_, hw, rfl, rfl, hwho⟩
  | _ => rename_i ih; exact ih he

/-- A continuation adds to the log, but nothing of the backend. -/
theorem log (h : Resumed debug s t r s') :
    ∃ es, s'.log = s.log ++ es ∧ ∀ e ∈ es, e.isBackend = false := by
  have append {l new : List Event}
      (hl : ∃ es, l = s.log ++ es ∧ ∀ e ∈ es, e.isBackend = false)
      (hnew : ∀ e ∈ new, e.isBackend = false) :
      ∃ es, l ++ new = s.log ++ es ∧ ∀ e ∈ es, e.isBackend = false := by
    obtain ⟨es, rfl, hes⟩ := hl
    exact ⟨es ++ new, List.append_assoc _ _ _, List.forall_mem_append.2 ⟨hes, hnew⟩⟩
  induction h with
  | idle => exact ⟨[], (List.append_nil _).symm, fun e he => absurd he List.not_mem_nil⟩
  | setState _ _ _ _ ih | setImage _ _ _ _ ih =>
    exact append ih fun e he => eq_of_mem_stateError he ▸ rfl
  | display _ _ hs ih =>
    refine append ih fun e he => ?_
    split at he
    · exact List.mem_singleton.1 he ▸ Event.isBackend_of_isShown hs
    · cases he
  | emit _ hs ih =>
    exact append ih (List.forall_mem_singleton.2 (Event.isBackend_of_isShown hs))
  | forward _ _ _ _ ih | issue _ _ _ _ _ ih => exact append ih (List.forall_mem_singleton.2 rfl)
  | _ => assumption

end Resumed

/-! ## Frames of a tap -/

/-- What a tap on the page on top does. -/
inductive Tap (s : App) : Action → App → Prop
  | back (hl : 2 ≤ s.stack.length) : Tap s .back s.pop
  | spawnAll {a : Action} {e : Element} {st : List Element} {ts : List Task}
    (hst : s.stack = e :: st) (he : e.screen ≠ .splashScreen) (hts : ∀ t ∈ ts, a.Starts s t) :
    Tap s a (s.spawnAll ts)
  | create {a : Action} {e : Element} {st : List Element} (hst : s.stack = e :: st)
    (he : e.screen ≠ .splashScreen) (sc : Screen) : Tap s a (s.create sc)
  | openDrawer {k : ℕ} {st : List Element} (hst : s.stack = ⟨.dashBoard, k⟩ :: st) :
    Tap s .openDrawer ((s.create .sideMenu).emit (.picture s.global.userImage))
  | openEnterNumber {k : ℕ} {st : List Element} (hst : s.stack = ⟨.signIn, k⟩ :: st) :
    Tap s .openEnterNumber (s.push .enterNumber)
  | openMap {k : ℕ} {st : List Element} (hst : s.stack = ⟨.dashBoard, k⟩ :: st) :
    Tap s .openMap (s.push .userMap)
  | signOut {k : ℕ} {st : List Element} (hst : s.stack = ⟨.dashBoard, k⟩ :: st) :
    Tap s .signOut ({ s with auth := none }.pushAndRemoveAll .signIn)

theorem Tap.spawn {t' : Task} {e : Element} {st : List Element} (hst : s.stack = e :: st)
    (he : e.screen ≠ .splashScreen) (ht : a.Starts s t') : Tap s a (s.spawn t') :=
  .spawnAll hst he (List.forall_mem_singleton.2 ht)

/-- **Taps**, page by page. -/
theorem tap_of_step (ha : a.isTap) (h : step debug s a = some s') : Tap s a s' := by
  cases a <;> simp only [Action.isTap, reduceCtorEq] at ha <;> simp only [step] at h
  case back =>
    simp only [Option.ite_none_right_eq_some, Option.some.injEq] at h
    obtain ⟨hl, rfl⟩ := h
    exact .back hl
  case doneOTP =>
    split at h
    · next hst =>
      obtain rfl := Option.some.inj h
      exact .spawn hst (by simp) (by simp [Action.Starts, hst])
    · cases h
  case pickDrawerImage k =>
    simp only [Option.ite_none_right_eq_some] at h
    obtain ⟨hk, h⟩ := h
    obtain ⟨_, st, hst, rfl⟩ := onTop_eq_some h
    exact .spawn hst (by simp) ⟨hk, rfl⟩
  all_goals obtain ⟨k, st, hst, rfl⟩ := onTop_eq_some h
  case continueProfile =>
    refine .spawnAll hst (by simp) fun t ht => ?_
    rcases List.mem_cons.1 ht with rfl | ht
    · simp [Action.Starts, hst]
    · split at ht
      · rw [List.mem_singleton.1 ht]
        simp [Action.Starts, hst]
      · cases ht
  case buildAnimation | showCustomMap => exact .create hst (by simp) _
  case openDrawer => exact .openDrawer hst
  case openEnterNumber => exact .openEnterNumber hst
  case openMap => exact .openMap hst
  case signOut => exact .signOut hst
  all_goals exact .spawn hst (by simp) (by simp [Action.Starts, hst])

/-- What a tap leaves alone, and what it starts. -/
structure Tapped (s : App) (a : Action) (s' : App) : Prop where
  accounts : s'.accounts = s.accounts
  prefs : s'.prefs = s.prefs
  global : s'.global = s.global
  store : s'.store = s.store
  pending : s'.pending = s.pending
  mounted : s.mounted ⊆ s'.mounted
  stack : ∀ e ∈ s'.stack, e ∈ s.stack ∨ e ∈ s'.mounted
  tasks : ∃ ts, s'.tasks = s.tasks ++ ts ∧ ∀ t ∈ ts, a.Starts s t ∨ s'.Started s.nextKey t
  log : s'.log = s.log ∨ s'.log = s.log ++ [.picture s.global.userImage]

/-- **Taps.**  A tap starts tasks in the name of the signed-in account, and
    leaves the account's data, the writes and the backend alone. -/
theorem step_tap (ha : a.isTap) (h : step debug s a = some s') : Tapped s a s' := by
  cases tap_of_step ha h with
  | back =>
    exact ⟨rfl, rfl, rfl, rfl, rfl, List.Subset.refl _, fun e he => Or.inl (List.mem_of_mem_tail he),
      ⟨[], by simp⟩, Or.inl rfl⟩
  | spawnAll _ _ hts =>
    exact ⟨rfl, rfl, rfl, rfl, rfl, List.Subset.refl _, fun _ => Or.inl,
      ⟨_, rfl, fun t ht => Or.inl (hts t ht)⟩, Or.inl rfl⟩
  | create =>
    exact ⟨rfl, rfl, rfl, rfl, rfl, List.subset_cons_self _ _, fun _ => Or.inl,
      ⟨_, rfl, fun t ht => Or.inr (started_create ht)⟩, Or.inl rfl⟩
  | openDrawer =>
    exact ⟨rfl, rfl, rfl, rfl, rfl, List.subset_cons_self _ _, fun _ => Or.inl,
      ⟨_, rfl, fun t ht => Or.inr (started_create ht)⟩, Or.inr rfl⟩
  | openEnterNumber | openMap | signOut =>
    refine ⟨rfl, rfl, rfl, rfl, rfl, List.subset_cons_self _ _, fun e he => ?_,
      ⟨_, rfl, fun t ht => Or.inr (started_create ht)⟩, Or.inl rfl⟩
    rcases List.mem_cons.1 he with rfl | he
    · exact Or.inr List.mem_cons_self
    · first | exact Or.inl he | exact Or.inl ((List.dropWhile_suffix _).subset he)

theorem step_tap_auth (ha : a.isTap) (hs : a ≠ .signOut) (h : step debug s a = some s') :
    s'.auth = s.auth := by
  cases tap_of_step ha h with
  | signOut => exact absurd rfl hs
  | _ => rfl

/-- A tap opens `EnterNumber` or the map; signing out is the exception. -/
theorem step_tap_stack (ha : a.isTap) (hs : a ≠ .signOut) (h : step debug s a = some s') :
    ∀ e ∈ s'.stack, e ∈ s.stack ∨ e.screen = .enterNumber ∨
      e.screen = .userMap ∧ s.top = some .dashBoard := by
  intro e he
  cases tap_of_step ha h with
  | back => exact Or.inl (List.mem_of_mem_tail he)
  | spawnAll | create | openDrawer => exact Or.inl he
  | openEnterNumber =>
    rcases List.mem_cons.1 he with rfl | he
    · exact Or.inr (Or.inl rfl)
    · exact Or.inl he
  | openMap hst =>
    rcases List.mem_cons.1 he with rfl | he
    · exact Or.inr (Or.inr ⟨rfl, by rw [top, hst]; rfl⟩)
    · exact Or.inl he
  | signOut => exact absurd rfl hs

/-! ## Frames of a step -/

/-- What a step does, by the kind of its action. -/
inductive Stepped (debug : Bool) (s : App) : Action → App → Prop
  | tap {a : Action} {s' : App} (ha : a.isTap) (ht : Tapped s a s') : Stepped debug s a s'
  | relaunch : Stepped debug s .relaunch s.relaunch
  | dispose {k : ℕ} (hk : k ∉ s.stack.map (·.key)) : Stepped debug s (.dispose k) (s.dispose k)
  /-- a position reaches `UserLocation` -/
  | located {k : ℕ} (p : Position) (hk : ⟨.userLocation, k⟩ ∈ s.mounted) :
    Stepped debug s (.position k p) ((s.emit (.position p)).setGlobal (UserLocation.onPosition p))
  /-- a position reaches `CustomMap` -/
  | geocode {k : ℕ} (p : Position) (hk : ⟨.customMap, k⟩ ∈ s.mounted) :
    Stepped debug s (.position k p) ((s.emit (.position p)).spawn (.geocode k p))
  | resume {i : ℕ} {r : Reply} {t : Task} {s' : App} (ht : s.tasks[i]? = some t)
    (hr : App.resume debug (s.dequeue i) t r = some s') : Stepped debug s (.resume i r) s'
  | commit {j : ℕ} {w : Write} (hw : s.pending[j]? = some w) (ha : w.site.accepted s.store) :
    Stepped debug s (.commit j) ((s.answer j).commit w)
  | reject {j : ℕ} {w : Write} (hw : s.pending[j]? = some w) :
    Stepped debug s (.reject j) ((s.answer j).spawnAll w.onError.toList)

/-- **Steps**, by the kind of their actions. -/
theorem step_stepped (h : step debug s a = some s') : Stepped debug s a s' := by
  by_cases ha : a.isTap
  · exact .tap ha (step_tap ha h)
  cases a <;> simp only [Action.isTap, not_true_eq_false] at ha <;> simp only [step] at h
  case relaunch => exact Option.some.inj h ▸ .relaunch
  case dispose k =>
    split_ifs at h with hk
    exact Option.some.inj h ▸ .dispose hk
  case position k p =>
    unfold position at h
    split at h
    · next k' hm =>
      obtain rfl : k' = k := by simpa using List.find?_some hm
      exact Option.some.inj h ▸ .located p (List.mem_of_find?_eq_some hm)
    · next k' hm =>
      obtain rfl : k' = k := by simpa using List.find?_some hm
      exact Option.some.inj h ▸ .geocode p (List.mem_of_find?_eq_some hm)
    · cases h
  case resume i r =>
    split at h
    · next t ht => exact .resume ht h
    · cases h
  case commit j =>
    split at h
    · next w hw =>
      split_ifs at h with hacc
      exact Option.some.inj h ▸ .commit hw hacc
    · cases h
  case reject j =>
    split at h
    · next w hw => exact Option.some.inj h ▸ .reject hw
    · cases h

/-- The backend is left alone, or it applies a pending write. -/
theorem step_cases (h : step debug s a = some s') :
    (s'.store = s.store ∧ ∃ es, s'.log = s.log ++ es ∧ ∀ e ∈ es, e.isBackend = false) ∨
      ∃ j, a = .commit j ∧ ∃ w ∈ s.pending[j]?, w.site.accepted s.store ∧
        s' = (s.answer j).commit w := by
  have quiet {s' : App} (hst : s'.store = s.store) (hl : s'.log = s.log) :
      s'.store = s.store ∧ ∃ es, s'.log = s.log ++ es ∧ ∀ e ∈ es, e.isBackend = false :=
    ⟨hst, [], by rw [hl, List.append_nil], by simp⟩
  cases step_stepped h with
  | tap ha ht =>
    refine Or.inl ?_
    rcases ht.log with hl | hl
    · exact quiet ht.store hl
    · exact ⟨ht.store, _, hl, by simp [Event.isBackend]⟩
  | relaunch | dispose | reject => exact Or.inl (quiet rfl rfl)
  | located | geocode => exact Or.inl ⟨rfl, _, rfl, by simp [Event.isBackend]⟩
  | @resume i _ _ _ _ hr =>
    have h' := resume_resumed hr
    exact Or.inl ⟨h'.store, h'.log⟩
  | commit hw ha => exact Or.inr ⟨_, rfl, _, hw, ha, rfl⟩

/-- A pending write is new, or was pending before, or its callbacks are gone. -/
theorem step_pending (h : step debug s a = some s') {w : Write} (hw : w ∈ s'.pending) :
    (∃ i, a = .resume i .done ∧ ∃ t ∈ s.tasks[i]?, t.Issues s w) ∨ w ∈ s.pending ∨
      ∃ w₀ ∈ s.pending, w = { w₀ with onDone := none, onError := none } := by
  cases step_stepped h with
  | tap ha ht => exact Or.inr (Or.inl (ht.pending ▸ hw))
  | relaunch =>
    obtain ⟨w₀, hw₀, rfl⟩ := List.mem_map.1 hw
    exact Or.inr (Or.inr ⟨w₀, hw₀, rfl⟩)
  | dispose | located | geocode => exact Or.inr (Or.inl hw)
  | resume ht hr =>
    rcases (resume_resumed hr).issues with hp | ⟨rfl, w', hp, hw'⟩ <;> rw [hp] at hw
    · exact Or.inr (Or.inl hw)
    · rcases List.mem_append.1 hw with hw | hw
      · exact Or.inr (Or.inl hw)
      · obtain rfl := List.mem_singleton.1 hw
        exact Or.inl ⟨_, rfl, _, ht, hw'⟩
  | commit | reject => exact Or.inr (Or.inl (List.mem_of_mem_eraseIdx hw))

/-- The pending writes are those of the sites. -/
def Formed (s : App) : Prop := ∀ w ∈ s.pending, w.Formed

theorem Formed.step (hf : s.Formed) (h : Mazdoor.step debug s a = some s') : s'.Formed := by
  intro w hw
  rcases step_pending h hw with ⟨_, -, _, -, hw⟩ | hw | ⟨w₀, hw₀, rfl⟩
  · exact hw.formed
  · exact hf w hw
  · exact ⟨(hf w₀ hw₀).fields, by simp⟩

/-- **New tasks of a step.** -/
theorem step_tasks (h : step debug s a = some s') :
    ∀ t' ∈ s'.tasks, t' ∈ s.tasks ∨ s.Fresh a s' t' := by
  intro t' ht'
  cases step_stepped h with
  | tap ha ht =>
    obtain ⟨ts, hts, hst⟩ := ht.tasks
    rw [hts] at ht'
    exact (List.mem_append.1 ht').imp id fun ht' => (hst t' ht').elim (.tapped ha) .started
  | relaunch =>
    exact Or.inr (.started ⟨isMounted_iff.2 ⟨_, List.mem_singleton_self _, rfl⟩, .splashScreen, ht'⟩)
  | dispose | located => exact Or.inl ht'
  | geocode p hk =>
    refine (List.mem_append.1 ht').imp id fun ht' => ?_
    rw [List.mem_singleton.1 ht']
    exact .geocode (isMounted_iff.2 ⟨_, hk, rfl⟩) (List.mem_append_right _ (List.mem_singleton_self _))
  | resume ht hr =>
    rcases (resume_resumed hr).tasks t' ht' with ht' | ht' | ht'
    · exact Or.inl (List.mem_of_mem_eraseIdx ht')
    · exact Or.inr (.spawned _ _ rfl ht ht')
    · exact Or.inr (.started ht')
  | commit hw ha =>
    refine (List.mem_append.1 ht').imp id fun ht' => ?_
    exact .done _ rfl hw (Option.mem_toList.1 ht')
  | reject hw =>
    refine (List.mem_append.1 ht').imp id fun ht' => ?_
    exact .error _ rfl hw (Option.mem_toList.1 ht')

theorem step_commit {j : ℕ} {w : Write} (h : step debug s (.commit j) = some s')
    (hw : w ∈ s.pending[j]?) : s' = (s.answer j).commit w := by
  rw [Option.mem_def] at hw
  simp only [step, hw] at h
  split_ifs at h
  exact (Option.some.inj h).symm

theorem step_log (h : step debug s a = some s') : s.log ⊆ s'.log := by
  rcases step_cases h with ⟨-, es, hl, -⟩ | ⟨j, -, w, -, -, rfl⟩
  · exact hl ▸ List.subset_append_left _ _
  · exact List.subset_append_left _ _

theorem mem_creation {w : Write} {e : Event} (h : e ∈ s.creation w) :
    ∃ id, w.site.user = some id ∧ s.profile id = none ∧ e = .created id w.fields := by
  unfold creation at h
  split at h
  · next id hid =>
    split_ifs at h with hp
    · exact ⟨id, hid, by simpa using hp, List.mem_singleton.1 h⟩
    · cases h
  · cases h

/-- What a step logs as issued is the write of a continuation. -/
theorem step_issued (h : step debug s a = some s') {site : Site} {fields : Fields}
    {who : Option Uid} (he : .issued site fields who ∈ s'.log) :
    .issued site fields who ∈ s.log ∨ ∃ i r, a = .resume i r ∧ ∃ t ∈ s.tasks[i]?, ∃ w,
      t.Issues s w ∧ w.site = site ∧ w.fields = fields ∧ t.startedBy = some who := by
  cases step_stepped h with
  | tap _ ht =>
    rcases ht.log with hl | hl <;> rw [hl] at he
    · exact Or.inl he
    · exact Or.inl (by simpa using he)
  | relaunch | dispose | reject => exact Or.inl he
  | located | geocode => exact Or.inl (by simpa using he)
  | resume ht hr =>
    exact ((resume_resumed hr).issued he).imp id fun ⟨w, hw⟩ => ⟨_, _, rfl, _, ht, w, hw⟩
  | commit hw =>
    refine Or.inl ((List.mem_append.1 he).resolve_right fun he => ?_)
    rcases List.mem_cons.1 he with he | he
    · cases he
    · obtain ⟨_, -, -, he⟩ := mem_creation he
      cases he

theorem formed_launch (accounts : List Uid) (store : Store) : (launch accounts store).Formed := by
  simp [Formed]

end
end App

/-! ## Applied writes -/

/-- The write of an event of the backend. -/
def Event.commits : Event → Option (Site × Fields)
  | .committed site fields => some (site, fields)
  | _ => none

/-- The writes that the backend has applied for one device. -/
def App.committed (s : App) : List (Site × Fields) := s.log.filterMap Event.commits

/-- A write without its callbacks. -/
def Write.content (w : Write) : Site × Fields := (w.site, w.fields)

theorem commits_of_not_isBackend {e : Event} (h : e.isBackend = false) : e.commits = none := by
  cases e <;> simp_all [Event.isBackend, Event.commits]

theorem filterMap_commits {es : List Event} (h : ∀ e ∈ es, e.isBackend = false) :
    es.filterMap Event.commits = [] :=
  List.filterMap_eq_nil_iff.2 fun e he => commits_of_not_isBackend (h e he)

theorem commits_creation (s : App) (w : Write) : (s.creation w).filterMap Event.commits = [] :=
  List.filterMap_eq_nil_iff.2 fun _ he => by
    obtain ⟨_, -, -, rfl⟩ := App.mem_creation he
    rfl

theorem committed_commit (s : App) (w : Write) :
    (s.commit w).committed = s.committed ++ [w.content] := by
  rw [App.committed, App.commit_log, List.filterMap_append, List.filterMap_cons]
  simp only [Event.commits, commits_creation]
  rfl

/-- Only a step of the backend applies a write. -/
theorem committed_step {debug : Bool} {s s' : App} {a : Action} (h : step debug s a = some s')
    (ha : ∀ j, a ≠ .commit j) : s'.committed = s.committed := by
  rcases App.step_cases h with ⟨-, es, hl, hes⟩ | ⟨j, rfl, -⟩
  · rw [App.committed, hl, List.filterMap_append, filterMap_commits hes, List.append_nil,
      App.committed]
  · exact absurd rfl (ha j)

end Mazdoor
