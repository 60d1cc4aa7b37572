/-
  Whose documents the app writes.

  The uid of the account lives in `FirebaseAuth` and, under the key
  `currentUserId`, in the preferences; every write is addressed by the key.

  * `Event.Addressed`: a write to a `Users_Info` or a `From_User` document is
    addressed by the uid of the account that started its operation;
  * `returning_writes_elsewhere`: a returning account's sign-in does not store
    its uid, so that its writes go to the account that used the device before;
  * `KeyCond` is the condition under which a step keeps the key right, `KeyInv`
    the invariant, and `addressed_of_keyCond` the run theorem.
-/
import Mazdoor.Frame

namespace Mazdoor

open Transition

/-- A write to a document of `Users_Info` or `From_User` is addressed by the uid
    of the account that was signed in when its operation was started. -/
def Event.Addressed : Event → Prop
  | .issued (.registration id) _ startedBy | .issued (.location id) _ startedBy
  | .issued (.picture id) _ startedBy | .issued (.fromUser _ id) _ startedBy =>
    startedBy.map Seg.name = some id
  | _ => True

instance (e : Event) : Decidable e.Addressed := by
  unfold Event.Addressed
  split <;> infer_instance

/-! ## A run that writes into another account's record -/

/-- `B` and then `A` register on the device; `B` comes back and continues. -/
def returningOnSharedDevice : List Action :=
  [.resume 0 .done,
    .facebookSignIn, .resume 0 .done, .resume 0 (.credential "B"), .resume 0 .done,
    .relaunch, .resume 0 .done, .signOut,
    .facebookSignIn, .resume 0 .done, .resume 0 (.credential "A"), .resume 0 .done,
    .relaunch, .resume 0 .done, .signOut,
    .facebookSignIn, .resume 0 .done, .resume 0 (.credential "B"), .resume 0 .done,
    .continueLocation, .resume 1 .done, .resume 1 .done, .resume 1 .done]

/-- **The claimed addressing fails**: `B`'s location is handed to `A`'s record. -/
theorem returning_writes_elsewhere :
    ∃ s, run (step false) (App.launch [] ∅) returningOnSharedDevice = some s ∧
      .issued (.location (.name "A")) (locationFields {}) (some "B") ∈ s.log ∧
      ¬ ∀ e ∈ s.log, e.Addressed := by
  refine ⟨_, rfl, ?_, ?_⟩ <;> decide

/-! ## The condition -/

/-- The account that started an operation which has yet to read the key. -/
def Task.unread : Task → Option (Option Uid)
  | .uploadPic _ who | .addPhoneNumber _ who | .locationPrefs _ who | .locationUserId _ who
  | .tap _ who => some who
  | _ => none

/-- The account that started an operation, and the uid that it has read. -/
def Task.read : Task → Option (Option Uid × Option Uid)
  | .locationStore _ who uid | .tapHeader _ who uid | .tapProfile _ who uid => some (who, uid)
  | .picQuery _ uid who => some (who, some uid)
  | _ => none

/-- A sign-in that Firebase has accepted and that waits for its branch. -/
def Task.accepted : Task → Bool
  | .signIn .. | .facebook .. => true
  | _ => false

/-- The first-time account of such a sign-in. -/
def Task.newUser : Task → Option Uid
  | .signIn _ uid true | .facebook _ uid true => some uid
  | _ => none

/-- The condition on a continuation. -/
def Task.keyCond (s : App) : Task → Reply → Prop
  | .signInCredential _, .credential uid | .facebookCredential _, .credential uid =>
    (∀ t ∈ s.tasks, t.accepted = false) ∧ (uid ∈ s.accounts → s.prefs.currentUserId = some uid)
  | .signIn k _ true, .done => s.isMounted k ∧ ∀ t ∈ s.tasks, t.unread = none
  | .facebook _ _ true, .done => ∀ t ∈ s.tasks, t.unread = none
  | .signIn _ _ true, .failed | .facebook _ _ true, .failed => False
  | .picUpdated _ startedBy, .done => s.auth ≠ none → s.auth = startedBy
  | _, _ => True

instance (s : App) (t : Task) (r : Reply) : Decidable (t.keyCond s r) := by
  unfold Task.keyCond
  split <;> infer_instance

/-- The condition of a step: returning accounts sign in where the key is theirs,
    sign-ins do not overlap, a first-time account reaches its branch, operations
    are started by a signed-in account outside of a sign-in, and a picture update
    does not outlive its account's session. -/
def KeyCond (s : App) : Action → Prop
  | .resume i r => ∀ t ∈ s.tasks[i]?, t.keyCond s r
  | .continueProfile | .continueLocation | .proceed | .tapMarker _ =>
    s.auth ≠ none ∧ ∀ t ∈ s.tasks, t.accepted = false
  | .relaunch => ∀ t ∈ s.tasks, t.newUser = none
  | _ => True

instance (s : App) (a : Action) : Decidable (KeyCond s a) := by
  induction a using Action.casesOn <;> dsimp only [KeyCond] <;> infer_instance

/-! ## Profiles with a `uid` -/

/-- A profile with a `uid` field, by which `updateProfilePic` looks for it, is
    the account's own. -/
def UidKeyed (st : Store) : Prop :=
  ∀ id d u, st.lookup (usersInfo id) = some d → d "uid" = some (.str u) → id = .name u

theorem Write.Formed.uid_notMem {w : Write} (h : w.Formed) : "uid" ∉ w.fields.map Prod.fst := by
  have h := h.fields
  unfold Write.FieldsOfSite at h
  split at h <;> obtain ⟨_, h⟩ := h <;> rw [h] <;>
    simp [registrationFields, locationFields, pictureFields, laborRequestFields, fromUserFields]

/-- No write of the app has a `uid` field. -/
theorem UidKeyed.write {st : Store} {w : Write} (h : UidKeyed st) (hw : w.Formed)
    (ha : w.site.accepted st) : UidKeyed (w.site.write st w.fields) := by
  intro id d u hd hu
  rw [Site.lookup_write _ _ _ _ ha] at hd
  split_ifs at hd with hs
  · obtain rfl := Option.some.inj hd
    rw [DocStore.merge_of_notMem hw.uid_notMem] at hu
    cases hl : st.lookup (usersInfo id) with
    | none => simp [hl, DocStore.emptyDoc] at hu
    | some d => exact h id d u hl (by simpa [hl] using hu)
  · exact h id d u hd hu

theorem UidKeyed.step {debug : Bool} {s s' : App} {a : Action} (h : UidKeyed s.store)
    (hf : s.Formed) (hs : step debug s a = some s') : UidKeyed s'.store := by
  rcases App.step_cases hs with ⟨hst, -⟩ | ⟨j, -, w, hw, ha, rfl⟩
  · exact hst ▸ h
  · exact h.write (hf w (List.mem_of_getElem? hw)) ha

/-! ## The invariant -/

/-- What the invariant asks of a task, when the key is `key`. -/
structure Task.KeyOK (t : Task) (auth key : Option Uid) : Prop where
  unread : ∀ who ∈ t.unread, who = key ∧ key ≠ none
  read : ∀ p ∈ t.read, p.1 = p.2 ∧ p.2 ≠ none
  newUser : ∀ u ∈ t.newUser, auth = some u ∨ auth = none

/-- What it asks of a task in every session. -/
structure Task.Settled (t : Task) : Prop where
  unread : t.unread = none
  newUser : t.newUser = none
  read : ∀ p ∈ t.read, p.1 = p.2 ∧ p.2 ≠ none

theorem Task.Settled.keyOK {t : Task} (h : t.Settled) (auth key : Option Uid) : t.KeyOK auth key :=
  ⟨by simp [h.unread], h.read, by simp [h.newUser]⟩

theorem Task.settled_of_isInit {t : Task} (h : t.isInit) : t.Settled := by
  cases t <;> simp only [Task.isInit, reduceCtorEq] at h <;> exact ⟨rfl, rfl, by simp [Task.read]⟩

/-- **The invariant**: the key is the signed-in account's or about to become it,
    every operation on its way carries the key of its account, and what was
    written is addressed. -/
structure KeyInv (s : App) : Prop where
  key : ∀ u ∈ s.auth, s.prefs.currentUserId = some u ∨ ∃ t ∈ s.tasks, u ∈ t.newUser
  tasks : ∀ t ∈ s.tasks, t.KeyOK s.auth s.prefs.currentUserId
  pending : ∀ w ∈ s.pending, ∀ t, t ∈ w.onDone ∨ t ∈ w.onError → t.Settled
  log : ∀ e ∈ s.log, e.Addressed

theorem KeyInv.launch (accounts : List Uid) (store : Store) : KeyInv (App.launch accounts store) :=
  ⟨by simp, by simpa using (Task.settled_of_isInit rfl).keyOK _ _, by simp, by simp⟩

/-- A step that keeps the session and adds only what the invariant allows. -/
theorem KeyInv.extend {s s' : App} (h : KeyInv s) (ha : s'.auth = s.auth)
    (hk : s'.prefs.currentUserId = s.prefs.currentUserId) (hm : s.tasks ⊆ s'.tasks)
    (ht : ∀ t ∈ s'.tasks, t ∈ s.tasks ∨ t.KeyOK s.auth s.prefs.currentUserId)
    (hp : ∀ w ∈ s'.pending, w ∈ s.pending ∨ ∀ t, t ∈ w.onDone ∨ t ∈ w.onError → t.Settled)
    (hl : ∀ e ∈ s'.log, e ∈ s.log ∨ e.Addressed) : KeyInv s' := by
  refine ⟨?_, ?_, ?_, ?_⟩
  · rw [ha, hk]
    exact fun u hu => (h.key u hu).imp id fun ⟨t, ht, hu⟩ => ⟨t, hm ht, hu⟩
  · rw [ha, hk]
    exact fun t hm => (ht t hm).elim (h.tasks t) id
  · exact fun w hw => (hp w hw).elim (h.pending w) id
  · exact fun e he => (hl e he).elim (h.log e) id

/-- Removing a task that is not a first-time sign-in. -/
theorem KeyInv.dequeue {s : App} {i : ℕ} {t : Task} (h : KeyInv s) (ht : s.tasks[i]? = some t)
    (hn : t.newUser = none) : KeyInv (s.dequeue i) := by
  refine ⟨fun u hu => (h.key u hu).imp id ?_, fun t ht => h.tasks t (List.mem_of_mem_eraseIdx ht),
    h.pending, h.log⟩
  rintro ⟨t', ht', hu'⟩
  refine ⟨t', App.mem_eraseIdx_of_ne ht ht' ?_, hu'⟩
  rintro rfl
  rw [hn] at hu'
  cases hu'

section
variable {debug : Bool} {s s' : App} {t : Task} {r : Reply} {uid : Uid}

/-! ### Continuations of an operation -/

/-- An operation goes on with the key that it was started with. -/
theorem Task.KeyOK.spawned {t' : Task} (h : t.KeyOK s.auth s.prefs.currentUserId)
    (hC : t.keyCond s r) (hs : t.signsIn = false) (hsp : t.Spawns s r t') :
    t'.KeyOK s.auth s.prefs.currentUserId := by
  unfold Task.Spawns at hsp
  split at hsp
  all_goals try exact hsp.elim
  all_goals try cases hs
  case h_10 | h_11 | h_14 => subst hsp; exact ⟨h.unread, h.read, h.newUser⟩
  case h_12 k who =>
    subst hsp
    obtain ⟨rfl, hk⟩ := h.unread who rfl
    exact ⟨by simp [Task.unread], by simpa [Task.read, functionUserId] using hk,
      by simp [Task.newUser]⟩
  case h_19 u who =>
    obtain ⟨v, hv, rfl⟩ := hsp
    have hw : s.auth = who := hC (by simp [show s.auth = some v from hv])
    refine ⟨by simp [Task.unread], ?_, by simp [Task.newUser]⟩
    simpa [Task.read, ← hw] using hv
  all_goals refine Task.Settled.keyOK ?_ _ _
  all_goals first
    | (subst hsp; exact ⟨rfl, rfl, by simp [Task.read]⟩)
    | (rcases hsp with rfl | rfl <;> exact ⟨rfl, rfl, by simp [Task.read]⟩)
    | (obtain ⟨_, -, rfl⟩ := hsp; exact ⟨rfl, rfl, by simp [Task.read]⟩)

theorem map_name_docId (s : App) {uid : Option Uid} (h : uid ≠ none) :
    uid.map Seg.name = some (s.docId uid) := by
  obtain ⟨u, rfl⟩ := Option.ne_none_iff_exists'.1 h
  rfl

/-- The write of an operation is addressed by the account that started it. -/
theorem Task.KeyOK.issued {w : Write} {who : Option Uid}
    (h : t.KeyOK s.auth s.prefs.currentUserId) (hst : UidKeyed s.store) (hw : t.Issues s w)
    (hwho : t.startedBy = some who) : Event.Addressed (.issued w.site w.fields who) := by
  cases t <;> simp only [Task.Issues] at hw <;> cases hwho
  case addPhoneNumber k =>
    subst hw
    obtain ⟨rfl, hk⟩ := h.unread who rfl
    exact map_name_docId s hk
  case locationStore k uid =>
    subst hw
    obtain ⟨rfl, hk⟩ : who = uid ∧ uid ≠ none := h.read (who, uid) rfl
    exact map_name_docId s hk
  case tap labor => obtain ⟨key, -, rfl⟩ := hw; trivial
  case tapProfile key uid =>
    obtain ⟨u, hu, d, -, rfl⟩ := hw
    obtain ⟨rfl, -⟩ : who = uid ∧ uid ≠ none := h.read (who, uid) rfl
    exact congrArg (Option.map Seg.name) hu
  case picQuery u uid =>
    -- the query finds profiles of the account only
    obtain ⟨p, hp, rfl⟩ := hw
    obtain ⟨rfl, -⟩ : who = some uid ∧ some uid ≠ none := h.read (who, some uid) rfl
    obtain ⟨d, hd, hu, hn, hc⟩ := DocStore.mem_query hp
    obtain ⟨id, rfl⟩ : ∃ id, p = usersInfo id := by
      refine ⟨p.getLast hn, ?_⟩
      rw [usersInfo, ← List.singleton_append, ← hc, List.dropLast_append_getLast]
    obtain rfl := hst id d uid hd hu
    rfl

theorem Task.KeyOK.callback {w : Write} (h : t.KeyOK s.auth s.prefs.currentUserId)
    (hw : t.Issues s w) : ∀ t', t' ∈ w.onDone ∨ t' ∈ w.onError → t'.Settled := by
  cases t <;> simp only [Task.Issues] at hw
  case addPhoneNumber k who => subst hw; simpa using ⟨rfl, rfl, by simp [Task.read]⟩
  case locationStore => subst hw; simp
  case tap labor who =>
    obtain ⟨key, -, rfl⟩ := hw
    have := h.unread who rfl
    simpa using ⟨rfl, rfl, by simpa [Task.read] using this⟩
  case tapProfile => obtain ⟨u, -, d, -, rfl⟩ := hw; simp
  case picQuery => obtain ⟨p, -, rfl⟩ := hw; simp

/-- The continuations that leave the session alone. -/
theorem KeyInv.resume_operation {i : ℕ} (h : KeyInv s) (hst : UidKeyed s.store)
    (ht : s.tasks[i]? = some t) (hC : t.keyCond s r) (hs : t.signsIn = false)
    (hr : App.resume debug (s.dequeue i) t r = some s') : KeyInv s' := by
  have hOK := h.tasks t (List.mem_of_getElem? ht)
  have hn : t.newUser = none := by
    cases t <;> simp only [Task.signsIn, reduceCtorEq] at hs <;> rfl
  have hR := App.resume_resumed hr
  obtain ⟨ha, -, hk⟩ := hR.session hs
  refine (h.dequeue ht hn).extend ha hk hR.tasks_mono (fun t' ht' => ?_)
    (fun w hw => ?_) fun e he => ?_
  · rcases hR.tasks t' ht' with ht' | ht' | ⟨-, sc, ht'⟩
    · exact Or.inl ht'
    · exact Or.inr (hOK.spawned hC hs ht')
    · exact Or.inr ((Task.settled_of_isInit (App.isInit_of_mem_initTasks ht')).keyOK _ _)
  · rcases hR.issues with hp | ⟨-, w', hp, hw'⟩ <;> rw [hp] at hw
    · exact Or.inl hw
    · refine (List.mem_append.1 hw).imp id fun hw => ?_
      rw [List.mem_singleton.1 hw]
      exact hOK.callback hw'
  · by_cases hi : ∃ site fields who, e = .issued site fields who
    · obtain ⟨site, fields, who, rfl⟩ := hi
      refine (hR.issued he).imp id ?_
      rintro ⟨w, hw, rfl, rfl, hwho⟩
      exact hOK.issued hst hw hwho
    · cases e <;> first | exact Or.inr trivial | exact absurd ⟨_, _, _, rfl⟩ hi

/-! ### Sign-ins -/

/-- Firebase accepts a credential. -/
theorem KeyInv.authenticate (h : KeyInv s) (hacc : ∀ t ∈ s.tasks, t.accepted = false)
    (hret : uid ∈ s.accounts → s.prefs.currentUserId = some uid)
    (hOK : t.KeyOK (some uid) s.prefs.currentUserId)
    (hnew : uid ∉ s.accounts → t.newUser = some uid) : KeyInv ((s.authenticate uid).spawn t) := by
  refine ⟨?_, ?_, h.pending, h.log⟩
  · rintro u hu
    obtain rfl : uid = u := Option.some.inj hu
    by_cases hm : uid ∈ s.accounts
    · exact Or.inl (hret hm)
    · exact Or.inr ⟨t, List.mem_append_right _ (List.mem_singleton_self t), hnew hm⟩
  · intro t' ht'
    rcases List.mem_append.1 ht' with ht' | ht'
    · -- no other sign-in is waiting, so that the new account is nobody's business
      have hn : t'.newUser = none := by
        have := hacc t' ht'
        cases t' <;> simp only [Task.accepted, reduceCtorEq] at this <;> rfl
      exact ⟨(h.tasks t' ht').unread, (h.tasks t' ht').read, by simp [hn]⟩
    · rw [List.mem_singleton.1 ht']
      exact hOK

/-- A first-time account reaches its branch, which stores its uid under the key. -/
theorem KeyInv.setUserId (h : KeyInv s) (ha : s.auth = some uid ∨ s.auth = none)
    (hu : ∀ t ∈ s.tasks, t.unread = none) (i : ℕ) : KeyInv ((s.dequeue i).setUserId uid) := by
  refine ⟨fun u hu => Or.inl ?_, fun t ht => ?_, h.pending, h.log⟩
  · simp only [App.setUserId_auth, App.dequeue_auth, Option.mem_def] at hu
    rcases ha with ha | ha <;> rw [ha] at hu
    · exact hu
    · cases hu
  · have ht := List.mem_of_mem_eraseIdx ht
    exact ⟨by simp [hu t ht], (h.tasks t ht).read, (h.tasks t ht).newUser⟩

theorem KeyInv.pop (h : KeyInv s) : KeyInv s.pop := ⟨h.key, h.tasks, h.pending, h.log⟩

theorem KeyInv.pushReplacement (h : KeyInv s) (sc : Screen) : KeyInv (s.pushReplacement sc) := by
  refine h.extend rfl rfl (List.subset_append_left _ _) (fun t ht => ?_) (fun _ => Or.inl)
    fun _ => Or.inl
  refine (App.pushReplacement_tasks_cases ht).imp id ?_
  rintro ⟨-, sc, ht⟩
  exact (Task.settled_of_isInit (App.isInit_of_mem_initTasks ht)).keyOK _ _

/-- A sign-in before and after Firebase accepts its credential. -/
theorem KeyInv.resume_signIn {i : ℕ} (h : KeyInv s) (ht : s.tasks[i]? = some t)
    (hC : t.keyCond s r) (hs : t.signsIn)
    (hr : App.resume debug (s.dequeue i) t r = some s') : KeyInv s' := by
  have hOK := h.tasks t (List.mem_of_getElem? ht)
  cases t with
  | signInCredential k | facebookCredential k =>
    cases r <;> simp only [App.resume, Option.some.injEq, reduceCtorEq] at hr <;> subst hr
    · exact h.dequeue ht rfl
    · refine (h.dequeue ht rfl).authenticate
        (fun t ht => hC.1 t (List.mem_of_mem_eraseIdx ht)) hC.2
        ⟨by simp [Task.unread], by simp [Task.read], ?_⟩ ?_
      · cases App.isNewUser _ _ <;> simp [Task.newUser]
      · intro hn
        simp [App.isNewUser, show _ ∉ s.accounts from hn, Task.newUser]
  | signIn k uid isNewUser =>
    cases isNewUser <;> cases r <;>
      simp only [App.resume, Option.some.injEq, reduceCtorEq] at hr <;> subst hr
    · have h := h.dequeue ht rfl
      rcases App.withContext_cases (s.dequeue i) k
        fun s => s.pop.pushReplacement .userLocation with ⟨-, hw⟩ | hw <;> rw [hw]
      · exact h.pop.pushReplacement _
      · exact h
    · exact h.dequeue ht rfl
    · obtain ⟨hk, hu⟩ := hC
      split
      · exact (h.setUserId (hOK.newUser uid rfl) hu i).pushReplacement _
      · next hn => exact absurd hk hn
    · exact hC.elim
  | facebook k uid isNewUser =>
    cases isNewUser <;> cases r <;>
      simp only [App.resume, Option.some.injEq, reduceCtorEq] at hr <;> subst hr
    · have h := h.dequeue ht rfl
      rcases App.withContext_cases (s.dequeue i) k
        (·.pushReplacement .userLocation) with ⟨-, hw⟩ | hw <;> rw [hw]
      · exact h.pushReplacement _
      · exact h
    · exact h.dequeue ht rfl
    · have h := h.setUserId (hOK.newUser uid rfl) hC i
      rcases App.withContext_cases (App.setUserId (s.dequeue i) uid) k
        (·.pushReplacement .userProfile) with ⟨-, hw⟩ | hw <;> rw [hw]
      · exact h.pushReplacement _
      · exact h
    · exact hC.elim
  | _ => simp [Task.signsIn] at hs

/-! ### Taps -/

/-- Outside of a sign-in the key is the signed-in account's. -/
theorem KeyInv.current (h : KeyInv s) (ha : s.auth ≠ none)
    (hacc : ∀ t ∈ s.tasks, t.accepted = false) :
    s.auth = s.prefs.currentUserId ∧ s.prefs.currentUserId ≠ none := by
  obtain ⟨u, hu⟩ := Option.ne_none_iff_exists'.1 ha
  rcases h.key u hu with hk | ⟨t, ht, hn⟩
  · simp [hu, hk]
  · have := hacc t ht
    cases t <;> simp [Task.accepted, Task.newUser] at this hn

/-- What a tap starts carries no key yet, and the account is the key's. -/
theorem KeyInv.started {a : Action} (h : KeyInv s) (hc : KeyCond s a) (ht : a.Starts s t) :
    t.KeyOK s.auth s.prefs.currentUserId := by
  have operation {t : Task} (hc : KeyCond s .proceed) (hu : ∀ who ∈ t.unread, who = s.auth)
      (hr : t.read = none) (hn : t.newUser = none) : t.KeyOK s.auth s.prefs.currentUserId := by
    obtain ⟨he, hk⟩ := h.current hc.1 hc.2
    exact ⟨fun who hw => ⟨(hu who hw).trans he, hk⟩, by simp [hr], by simp [hn]⟩
  unfold Action.Starts at ht
  split at ht
  case h_6 | h_7 | h_10 => exact operation hc (by simp [Task.unread, ht.2]) rfl rfl
  case h_9 => exact operation hc (by simp [Task.unread, ht]) rfl rfl
  case h_11 => exact ht.elim
  all_goals exact Task.Settled.keyOK ⟨rfl, rfl, by simp [Task.read]⟩ _ _

theorem KeyInv.tap {a : Action} (h : KeyInv s) (hc : KeyCond s a) (ha : a.isTap)
    (hs : step debug s a = some s') : KeyInv s' := by
  have ht := App.step_tap ha hs
  obtain ⟨ts, hts, hst⟩ := ht.tasks
  have hlog : ∀ e ∈ s'.log, e ∈ s.log ∨ e.Addressed := fun e he => by
    rcases ht.log with hl | hl <;> rw [hl] at he
    · exact Or.inl he
    · exact (List.mem_append.1 he).imp id fun he => by rw [List.mem_singleton.1 he]; trivial
  by_cases ho : a = .signOut
  · subst ho
    simp only [step] at hs
    obtain ⟨k, st, -, rfl⟩ := App.onTop_eq_some hs
    refine ⟨by simp, fun t ht => ?_, h.pending, h.log⟩
    simp only [App.pushAndRemoveAll_tasks, App.create_tasks, App.initTasks, List.append_nil] at ht
    exact ⟨(h.tasks t ht).unread, (h.tasks t ht).read, fun _ _ => Or.inr rfl⟩
  · refine h.extend (App.step_tap_auth ha ho hs) (congrArg _ ht.prefs)
      (hts ▸ List.subset_append_left _ _) (fun t ht => ?_) (fun w hw => Or.inl ?_) hlog
    · rw [hts] at ht
      refine (List.mem_append.1 ht).imp id fun ht => (hst t ht).elim (h.started hc) ?_
      rintro ⟨-, sc, ht⟩
      exact (Task.settled_of_isInit (App.isInit_of_mem_initTasks ht)).keyOK _ _
    · rwa [ht.pending] at hw

/-- **A step that meets the condition keeps the invariant.** -/
theorem KeyInv.step {a : Action} (h : KeyInv s) (hst : UidKeyed s.store) (hc : KeyCond s a)
    (hs : Mazdoor.step debug s a = some s') : KeyInv s' := by
  have addressed {p : Position} : ∀ e ∈ s.log ++ [.position p], e ∈ s.log ∨ e.Addressed :=
    fun e he =>
      (List.mem_append.1 he).imp id fun he => by rw [List.mem_singleton.1 he]; trivial
  -- what a step appends to the tasks carries no key
  have settled {ts : List Task} (hts : ∀ t ∈ ts, t.Settled) :
      ∀ t ∈ s.tasks ++ ts, t ∈ s.tasks ∨ t.KeyOK s.auth s.prefs.currentUserId := fun t ht =>
    (List.mem_append.1 ht).imp id fun ht => (hts t ht).keyOK _ _
  cases App.step_stepped hs with
  | tap ha => exact h.tap hc ha hs
  | @resume i r t _ ht hr =>
    cases hsi : t.signsIn with
    | false => exact h.resume_operation hst ht (hc t ht) hsi hr
    | true => exact h.resume_signIn ht (hc t ht) hsi hr
  | relaunch =>
    refine ⟨fun u hu => (h.key u hu).imp id ?_, ?_, by simp, h.log⟩
    · rintro ⟨t, ht, hn⟩
      simp [hc t ht] at hn
    · simpa using (Task.settled_of_isInit rfl).keyOK _ _
  | dispose => exact ⟨h.key, h.tasks, h.pending, h.log⟩
  | located =>
    exact h.extend rfl rfl (List.Subset.refl _) (fun _ => Or.inl) (fun _ => Or.inl) addressed
  | geocode =>
    refine h.extend rfl rfl (List.subset_append_left _ _) (settled fun t ht => ?_) (fun _ => Or.inl)
      addressed
    rw [List.mem_singleton.1 ht]
    exact ⟨rfl, rfl, by simp [Task.read]⟩
  | commit hw =>
    have hw := h.pending _ (List.mem_of_getElem? hw)
    refine h.extend rfl rfl (List.subset_append_left _ _)
      (settled fun t ht => hw t (Or.inl (Option.mem_toList.1 ht)))
      (fun w hw => Or.inl (List.mem_of_mem_eraseIdx hw)) fun e he => ?_
    refine (List.mem_append.1 he).imp id fun he => ?_
    rcases List.mem_cons.1 he with rfl | he
    · trivial
    · obtain ⟨_, -, -, rfl⟩ := App.mem_creation he
      trivial
  | reject hw =>
    have hw := h.pending _ (List.mem_of_getElem? hw)
    exact h.extend rfl rfl (List.subset_append_left _ _)
      (settled fun t ht => hw t (Or.inr (Option.mem_toList.1 ht)))
      (fun w hw => Or.inl (List.mem_of_mem_eraseIdx hw)) fun _ => Or.inl

end

/-- **Addressed by the account's own uid.**  On a backend whose profiles are
    keyed by their uids, in a run whose steps meet `KeyCond` every write to a
    `Users_Info` or `From_User` document is addressed by the uid of the account
    that was signed in when its operation was started. -/
theorem addressed_of_keyCond {debug : Bool} {accounts : List Uid} {store : Store}
    {acts : List Action} {s : App} (hst : UidKeyed store)
    (hc : Along (step debug) KeyCond (App.launch accounts store) acts)
    (hr : run (step debug) (App.launch accounts store) acts = some s) :
    ∀ e ∈ s.log, e.Addressed := by
  let I (s : App) : Prop := KeyInv s ∧ UidKeyed s.store ∧ s.Formed
  have h₀ : I (App.launch accounts store) := ⟨.launch _ _, hst, App.formed_launch _ _⟩
  have hI : I s := run_invariant
    (fun _ _ _ h hC hs => ⟨h.1.step h.2.1 hC hs, h.2.1.step h.2.2 hs, h.2.2.step hs⟩) h₀ hc hr
  exact hI.1.log

/-- `A` registers by Facebook, stores a location, asks a labor, signs out, and
    comes back to store a location again. -/
def returningOnOwnDevice : List Action :=
  [.resume 0 .done, .facebookSignIn, .resume 0 .done, .resume 0 (.credential "A"), .resume 0 .done,
    .pickProfileImage, .resume 0 .done, .continueProfile, .resume 0 (.form "Ahmad" "03001234567"),
    .resume 0 (.url "u"), .resume 0 .done, .commit 0, .resume 0 .done,
    .continueLocation, .resume 1 .done, .resume 1 .done, .resume 1 .done, .commit 0, .resume 1 .done,
    .openMap, .tapMarker ⟨"7", some "Plumber", none, none, none, none⟩, .resume 1 .done, .commit 0,
    .resume 1 .done, .resume 1 .done, .back, .signOut,
    .facebookSignIn, .resume 1 .done, .resume 1 (.credential "A"), .resume 1 .done,
    .continueLocation, .resume 2 .done, .resume 2 .done, .resume 2 .done]

theorem returningOnOwnDevice_addressed :
    ∃ s, run (step false) (App.launch [] ∅) returningOnOwnDevice = some s ∧
      s.pending.map (·.site) =
        [.fromUser "Plumber7" (.name "A"), .location (.name "A")] ∧ ∀ e ∈ s.log, e.Addressed :=
  ⟨_, rfl, by decide,
    @addressed_of_keyCond false [] ∅ returningOnOwnDevice _ (by simp [UidKeyed]) (by decide) rfl⟩

end Mazdoor
