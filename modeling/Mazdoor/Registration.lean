/-
  Who reaches the home screens.

  Four routes lead to `DashBoard`: the splash check, Done in the OTP dialog,
  Continue on `UserLocation`, and the sign-in of an account that Firebase calls
  not new.  The first, the second and the last take a signed-in account for a
  registered one.

  * `Registered`: the account's profile has a name and a phone number;
  * `home_without_profile`: a relaunch between the first sign-in and the
    registration;
  * `RegCond` asks that the account is registered where the code takes this for
    granted, that a registration follows an accepted form, and that the session
    does not change before the navigation; `RegInv` is the invariant and
    `home_of_regCond` the run theorem.
-/
import Mazdoor.Sources

namespace Mazdoor

open Transition

/-! ## Registered accounts -/

/-- The keys of a profile that a request reads. -/
def nameKeys : List String := ["userName", "userPhoneNumber"]

/-- The profile of the account has a name and a phone number. -/
def Registered (st : Store) (u : Uid) : Prop :=
  ∃ d ∈ st.lookup (usersInfo (.name u)), ∀ k ∈ nameKeys, field d k ≠ .null

instance (st : Store) (u : Uid) : Decidable (Registered st u) := by
  unfold Registered
  infer_instance

/-- The signed-in account is registered. -/
def App.Vouched (s : App) : Prop := ∃ u ∈ s.auth, Registered s.store u

instance (s : App) : Decidable s.Vouched := by
  unfold App.Vouched
  infer_instance

/-- `DashBoard` and `UserMap`. -/
def Screen.isHome : Screen → Bool
  | .dashBoard | .userMap => true
  | _ => false

/-- The screens behind the registration. -/
def Screen.isRegistered : Screen → Bool
  | .userLocation | .dashBoard | .userMap => true
  | _ => false

/-! ## A run without a registration -/

/-- `A` signs in by Facebook for the first time; the process ends before the registration. -/
def killedBeforeRegistration : List Action :=
  [.resume 0 .done, .facebookSignIn, .resume 0 .done, .resume 0 (.credential "A"), .resume 0 .done,
    .relaunch, .resume 0 .done]

/-- **The claimed registration fails**: `DashBoard` is shown to an account without a profile. -/
theorem home_without_profile :
    ∃ s, run (step false) (App.launch [] ∅) killedBeforeRegistration = some s ∧
      s.top = some .dashBoard ∧ s.auth = some "A" ∧ s.profile (.name "A") = none ∧ ¬ s.Vouched := by
  refine ⟨_, rfl, ?_, ?_, ?_, ?_⟩ <;> decide

/-! ## The condition -/

/-- The account for whose registration a pending task vouches: it was found by a
    check, or has passed the registration. -/
def Task.vouches : Task → Option (Option Uid)
  | .done _ _ (some u) => some (some u)
  | .signIn _ uid false | .facebook _ uid false => some (some uid)
  | .addPhoneNumberDone _ who | .locationPrefs (some _) who | .locationUserId (some _) who
  | .locationStore (some _) who _ | .locationDone _ who => some who
  | _ => none

/-- The `State` or context with which such a task goes on to the navigator. -/
def Task.vouchedContext : Task → Option ℕ
  | .done _ d (some _) => some d
  | .signIn k _ false | .facebook k _ false | .addPhoneNumberDone k _ | .locationDone k _ => some k
  | _ => none

/-- The condition on a continuation; `form` says that `_validityState` has accepted
    a form since the launch. -/
def Task.regCond (form : Bool) (s : App) : Task → Reply → Prop
  -- the checks: `currentUser() != null` and `!isNewUser` stand for a registration
  | .navigatePage k, .done => s.isMounted k → ∀ u ∈ s.auth, Registered s.store u
  | .doneUser _ _, .done => ∀ u ∈ s.auth, Registered s.store u
  | .signInCredential _, .credential uid | .facebookCredential _, .credential uid =>
    if uid ∈ s.accounts then Registered s.store uid
    else ∀ e ∈ s.stack, ¬ e.screen.isRegistered
  -- the registration: under the account's own key, after an accepted form
  | .addPhoneNumber _ who, .done => who ≠ none ∧ s.prefs.currentUserId = who ∧ form
  -- the navigation that follows, in the same session
  | t, .done => ∀ k ∈ t.vouchedContext, s.isMounted k → t.vouches = some s.auth
  | _, _ => True

instance (form : Bool) (s : App) (t : Task) (r : Reply) : Decidable (t.regCond form s r) := by
  induction t using Task.casesOn <;> induction r using Reply.casesOn <;>
    dsimp only [Task.regCond] <;> infer_instance

/-- The condition of a step. -/
def RegCond (x : App × Traces) : Action → Prop
  | .resume i r => ∀ t ∈ x.1.tasks[i]?, t.regCond x.2.now.form x.1 r
  | _ => True

instance (x : App × Traces) (a : Action) : Decidable (RegCond x a) := by
  induction a using Action.casesOn <;> dsimp only [RegCond] <;> infer_instance

/-! ## Registrations stay -/

/-- The fields name the user. -/
def Named (fields : Fields) : Prop :=
  ∀ k ∈ nameKeys, k ∈ fields.map Prod.fst ∧
    field (DocStore.merge DocStore.emptyDoc fields) k ≠ .null

theorem named_registrationFields {g : Globals} (hn : g.userName ≠ none)
    (hp : g.userPhoneNumber ≠ none) : Named (registrationFields g) := by
  simp [Named, nameKeys, registrationFields, DocStore.merge, field, Function.update, hn, hp]

theorem Named.merge {fields : Fields} (h : Named fields) (d : Doc) :
    ∀ k ∈ nameKeys, field (DocStore.merge d fields) k ≠ .null := by
  intro k hk
  obtain ⟨hm, hv⟩ := h k hk
  rwa [field, DocStore.merge_eq_of_mem hm d DocStore.emptyDoc]

/-- A registration on its way names its user, and only the acknowledgement of a
    registration vouches for its account. -/
structure Write.RegOK (w : Write) : Prop where
  named : ∀ id, w.site = .registration id → Named w.fields
  onDone : ∀ t ∈ w.onDone, ∀ who ∈ t.vouches, ∃ u ∈ who, w.site = .registration (.name u)
  onError : ∀ t ∈ w.onError, t.vouches = none

theorem Write.Formed.nameKeys_notMem {w : Write} (h : w.Formed) {u : Seg} (hu : w.site.user = some u)
    (hs : ∀ id, w.site ≠ .registration id) : ∀ k ∈ nameKeys, k ∉ w.fields.map Prod.fst := by
  have hw := h.fields
  unfold Write.FieldsOfSite at hw
  split at hw
  · next id hid => exact absurd hid (hs id)
  · obtain ⟨_, hw⟩ := hw
    simp [hw, nameKeys, locationFields]
  · obtain ⟨_, hw⟩ := hw
    simp [hw, nameKeys, pictureFields]
  · next hk => simp [hk, Site.user] at hu
  · next hk => simp [hk, Site.user] at hu

/-- A write keeps a registration. -/
theorem Registered.write {st : Store} {u : Uid} {w : Write} (h : Registered st u) (hf : w.Formed)
    (hn : w.RegOK) (ha : w.site.accepted st) :
    Registered (w.site.write st w.fields) u := by
  obtain ⟨d, hd, hk⟩ := h
  have hl := Site.lookup_write w.site st w.fields (.name u) ha
  split_ifs at hl with hs
  · refine ⟨_, hl, fun k hmem => ?_⟩
    by_cases hr : ∃ id, w.site = .registration id
    · obtain ⟨id, hid⟩ := hr
      exact (hn.named id hid).merge _ k hmem
    · rw [show st.lookup (usersInfo (.name u)) = some d from hd, field,
        DocStore.merge_of_notMem (hf.nameKeys_notMem hs (fun id hid => hr ⟨id, hid⟩) k hmem)]
      exact hk k hmem
  · exact ⟨d, hl.trans hd, hk⟩

/-- A registration that names its user registers the account. -/
theorem registered_write {st : Store} {u : Uid} {w : Write} (hn : w.RegOK)
    (hs : w.site = .registration (.name u)) : Registered (w.site.write st w.fields) u := by
  have hl := Site.lookup_write w.site st w.fields (.name u) (by rw [hs]; rfl)
  rw [if_pos (by rw [hs]; rfl)] at hl
  exact ⟨_, hl, (hn.named _ hs).merge _⟩

/-! ## The invariant -/

/-- The invariant: behind the registration the signed-in account is registered,
    pending tasks vouch for registered accounts, and so do the pending writes. -/
structure RegInv (s : App) : Prop where
  stack : (∃ e ∈ s.stack, e.screen.isRegistered) → s.Vouched
  tasks : ∀ t ∈ s.tasks, ∀ who ∈ t.vouches, ∃ u ∈ who, Registered s.store u
  pending : ∀ w ∈ s.pending, w.RegOK

theorem RegInv.launch (accounts : List Uid) (store : Store) : RegInv (App.launch accounts store) :=
  ⟨by simp [Screen.isRegistered], by simp [Task.vouches], by simp⟩

theorem vouches_of_isInit {t : Task} (h : t.isInit) : t.vouches = none := by
  cases t <;> simp only [Task.isInit, reduceCtorEq] at h <;> rfl

section
variable {debug form : Bool} {s s' : App} {x : Traces} {a : Action} {t : Task} {r : Reply}

theorem Registered.step {u : Uid} (h : Registered s.store u) (hI : RegInv s) (hf : s.Formed)
    (hs : step debug s a = some s') : Registered s'.store u := by
  rcases App.step_cases hs with ⟨hst, -⟩ | ⟨j, -, w, hw, ha, rfl⟩
  · exact hst ▸ h
  · have hw := List.mem_of_getElem? hw
    exact h.write (hf w hw) (hI.pending w hw) ha

/-- What a continuation spawns vouches for an account that was checked. -/
theorem RegInv.spawned {t' : Task} (h : RegInv s) (ht : t ∈ s.tasks) (hC : t.regCond form s r)
    (hsp : t.Spawns s r t') : ∀ who ∈ t'.vouches, ∃ u ∈ who, Registered s.store u := by
  have hT := h.tasks t ht
  unfold Task.Spawns at hsp
  split at hsp
  all_goals try exact hsp.elim
  case h_4 k d =>
    subst hsp
    cases ha : s.auth with
    | none => simp [Task.vouches]
    | some u =>
      rintro who ⟨⟩
      exact ⟨u, rfl, hC u ha⟩
  case h_7 k uid | h_9 k uid =>
    subst hsp
    cases hn : s.isNewUser uid with
    | true => simp [Task.vouches]
    | false =>
      rintro who ⟨⟩
      refine ⟨uid, rfl, ?_⟩
      have hC : if uid ∈ s.accounts then Registered s.store uid else _ := hC
      rwa [if_pos (by simpa [App.isNewUser] using hn)] at hC
  case h_11 k who | h_12 k who =>
    subst hsp
    cases k with
    | none => simp [Task.vouches]
    | some k => exact hT
  case h_13 k who uid =>
    obtain ⟨k', hk, rfl⟩ := hsp
    obtain rfl : k = some k' := hk
    exact hT
  all_goals
    first
    | (subst hsp; simp [Task.vouches])
    | (rcases hsp with rfl | rfl <;> simp [Task.vouches])
    | (obtain ⟨_, -, rfl⟩ := hsp; simp [Task.vouches])

/-- The write of a registration that meets the condition. -/
theorem issued_regOK {w : Write} (hg : s.global.From x.now) (hC : t.regCond x.now.form s .done)
    (hw : t.Issues s w) : w.RegOK := by
  cases t <;> simp only [Task.Issues] at hw
  case addPhoneNumber k who =>
    subst hw
    obtain ⟨hw, hk, hform⟩ := hC
    have hn : s.global.userName ≠ none := Option.isSome_iff_ne_none.1 (hg.name.trans hform)
    have hp : s.global.userPhoneNumber ≠ none := Option.isSome_iff_ne_none.1 (hg.phone.trans hform)
    obtain ⟨u, rfl⟩ := Option.ne_none_iff_exists'.1 hw
    refine ⟨fun _ _ => named_registrationFields hn hp, ?_, by simp⟩
    rintro t ⟨⟩ who ⟨⟩
    exact ⟨u, rfl, by rw [hk]; rfl⟩
  case locationStore => subst hw; exact ⟨by rintro _ ⟨⟩, by simp, by simp⟩
  case tap =>
    obtain ⟨key, -, rfl⟩ := hw
    exact ⟨by rintro _ ⟨⟩, by simp [Task.vouches], by simp [Task.vouches]⟩
  case tapProfile => obtain ⟨v, -, d, -, rfl⟩ := hw; exact ⟨by rintro _ ⟨⟩, by simp, by simp⟩
  case picQuery => obtain ⟨p, -, rfl⟩ := hw; exact ⟨by rintro _ ⟨⟩, by simp, by simp⟩

theorem RegInv.step_pending (h : RegInv s) (hx : Sourced s x) (hc : RegCond (s, x) a)
    (hs : step debug s a = some s') : ∀ w ∈ s'.pending, w.RegOK := by
  intro w hw
  rcases App.step_pending hs hw with ⟨i, rfl, t, ht, hw⟩ | hw | ⟨w₀, hw₀, rfl⟩
  · exact issued_regOK hx.global (hc t ht) hw
  · exact h.pending w hw
  · exact ⟨(h.pending w₀ hw₀).named, by simp, by simp⟩

/-- What a tap starts vouches for the account behind the registration. -/
theorem RegInv.tapped (h : RegInv s) (ht : a.Starts s t) :
    ∀ who ∈ t.vouches, ∃ u ∈ who, Registered s.store u := by
  unfold Action.Starts at ht
  split at ht
  all_goals try simp [Task.vouches]
  all_goals try exact ht.elim
  obtain ⟨htop, rfl⟩ := ht
  exact h.stack ⟨_, List.mem_of_mem_head? htop, rfl⟩

theorem RegInv.step_tasks (h : RegInv s) (hf : s.Formed) (hc : RegCond (s, x) a)
    (hs : step debug s a = some s') :
    ∀ t ∈ s'.tasks, ∀ who ∈ t.vouches, ∃ u ∈ who, Registered s'.store u := by
  intro t ht who hwho
  have lift : (∃ u ∈ who, Registered s.store u) → ∃ u ∈ who, Registered s'.store u :=
    fun ⟨u, hu, hr⟩ => ⟨u, hu, hr.step h hf hs⟩
  rcases App.step_tasks hs t ht with ht | ht
  · exact lift (h.tasks t ht who hwho)
  cases ht with
  | spawned i r ha ht hsp =>
    subst ha
    exact lift (h.spawned (List.mem_of_getElem? ht) (hc _ ht) hsp who hwho)
  | started ht =>
    obtain ⟨-, sc, ht⟩ := ht
    simp [vouches_of_isInit (App.isInit_of_mem_initTasks ht)] at hwho
  | done j ha hw hcb =>
    -- the acknowledged registration is in the store
    subst ha
    obtain rfl := App.step_commit hs hw
    have hw := h.pending _ (List.mem_of_getElem? hw)
    obtain ⟨u, hu, hsite⟩ := hw.onDone t hcb who hwho
    exact ⟨u, hu, registered_write hw hsite⟩
  | error j ha hw hcb =>
    simp [(h.pending _ (List.mem_of_getElem? hw)).onError t hcb] at hwho
  | tapped ha ht => exact lift (h.tapped ht who hwho)
  | geocode => cases hwho

/-- The screens behind the registration on the stack. -/
def App.BehindRegistration (s : App) : Prop := ∃ e ∈ s.stack, e.screen.isRegistered

theorem App.BehindRegistration.of_subset (h : s'.BehindRegistration) (hs : s'.stack ⊆ s.stack) :
    s.BehindRegistration :=
  h.imp fun _ he => ⟨hs he.1, he.2⟩

/-- A replaced route: the new one is on top of old ones. -/
theorem App.BehindRegistration.replaced {sc : Screen}
    (h : (s.pushReplacement sc).BehindRegistration) : sc.isRegistered ∨ s.BehindRegistration := by
  obtain ⟨e, he, hsc⟩ := h
  rw [pushReplacement_stack] at he
  rcases Navigator.mem_pushReplacement he with rfl | he
  · exact Or.inl hsc
  · exact Or.inr ⟨e, List.mem_of_mem_tail he, hsc⟩

/-- A continuation that goes on to the navigator in the session that it vouches for. -/
theorem RegInv.vouched (h : RegInv s) (ht : t ∈ s.tasks) (hv : t.vouches = some s.auth) :
    s.Vouched :=
  h.tasks t ht s.auth hv

/-- A sign-in that was accepted: a registered account, or no home screen to come back to. -/
theorem App.BehindRegistration.authenticated {uid : Uid} (hb : s'.BehindRegistration)
    (hC : if uid ∈ s.accounts then Registered s.store uid
      else ∀ e ∈ s.stack, ¬ e.screen.isRegistered)
    (ha : s'.auth = some uid) (hst : s'.store = s.store) (hs : s'.stack = s.stack) :
    s'.Vouched := by
  split_ifs at hC
  · exact ⟨uid, ha, hst ▸ hC⟩
  · obtain ⟨e, he, hsc⟩ := hb
    exact absurd hsc (hC e (hs ▸ he))

theorem RegInv.resume_stack {i : ℕ} (h : RegInv s) (ht : t ∈ s.tasks) (hC : t.regCond form s r)
    (hs : App.resume debug (s.dequeue i) t r = some s') : s'.BehindRegistration → s'.Vouched := by
  intro hb
  by_cases hq : t.navigates ∨ t.signsIn
  · cases t with
    | navigatePage k =>
      cases r <;> simp only [App.resume, Option.some.injEq, reduceCtorEq] at hs <;> subst hs
      · unfold App.withContext at hb ⊢
        split_ifs at hb ⊢ with hk
        · cases ha : s.auth with
          | none =>
            obtain ⟨e, he, hsc⟩ := hb
            simp [ha] at he
            simp [he, Screen.isRegistered] at hsc
          | some u => exact ⟨u, ha, hC hk u ha⟩
        · exact h.stack hb
      · exact h.stack hb
    | verifyPhone k =>
      cases r <;> simp only [App.resume, Option.some.injEq, reduceCtorEq] at hs <;> subst hs
      · exact h.stack hb
      · unfold App.withContext at hb ⊢
        split_ifs at hb ⊢ with hk
        · obtain ⟨e, he, hsc⟩ := hb
          rcases List.mem_cons.1 he with rfl | he
          · cases hsc
          · exact h.stack ⟨e, he, hsc⟩
        · exact h.stack hb
      · exact h.stack hb
    | done k d user =>
      cases user <;> cases r <;>
        simp only [App.resume, Option.some.injEq, reduceCtorEq] at hs <;> subst hs
      · exact h.stack hb
      · exact h.stack hb
      · unfold App.withContext at hb ⊢
        split_ifs at hb ⊢ with hk
        · exact h.vouched ht (hC d rfl hk)
        · exact h.stack hb
      · exact h.stack hb
    | signInCredential k | facebookCredential k =>
      cases r <;> simp only [App.resume, Option.some.injEq, reduceCtorEq] at hs <;> subst hs
      · exact h.stack hb
      · exact hb.authenticated hC rfl rfl rfl
    | signIn k uid isNewUser | facebook k uid isNewUser =>
      cases isNewUser <;> cases r <;>
        simp only [App.resume, Option.some.injEq, reduceCtorEq] at hs <;> subst hs
      · unfold App.withContext at hb ⊢
        split_ifs at hb ⊢ with hk
        · exact h.vouched ht (hC k rfl hk)
        · exact h.stack hb
      · exact h.stack hb
      · try unfold App.withContext at hb ⊢
        split_ifs at hb ⊢
        · exact h.stack (hb.replaced.resolve_left (by simp [Screen.isRegistered]))
        · exact h.stack hb
      · exact h.stack hb
    | addPhoneNumberDone k who | locationDone k who =>
      cases r <;> simp only [App.resume, Option.some.injEq, reduceCtorEq] at hs <;> subst hs
      · unfold App.withContext at hb ⊢
        split_ifs at hb ⊢ with hk
        · exact h.vouched ht (hC k rfl hk)
        · exact h.stack hb
      · exact h.stack hb
    | _ => simp [Task.navigates, Task.signsIn] at hq
  · simp only [not_or, Bool.not_eq_true] at hq
    have hR := App.resume_resumed hs
    obtain ⟨u, hu, hr⟩ := h.stack (hb.of_subset (hR.stack hq.1 ▸ List.Subset.refl _))
    exact ⟨u, (hR.session hq.2).1 ▸ hu, hR.store ▸ hr⟩

/-- A tap comes to a home screen only from one. -/
theorem RegInv.tap_stack (h : RegInv s) (ha : a.isTap) (hs : step debug s a = some s') :
    s'.BehindRegistration → s'.Vouched := by
  intro hb
  have hst := (App.step_tap ha hs).store
  by_cases ho : a = .signOut
  · subst ho
    simp only [step] at hs
    obtain ⟨k, st, -, rfl⟩ := App.onTop_eq_some hs
    obtain ⟨e, he, hsc⟩ := hb
    simp at he
    simp [he, Screen.isRegistered] at hsc
  suffices hb : s.BehindRegistration by
    obtain ⟨u, hu, hr⟩ := h.stack hb
    exact ⟨u, (App.step_tap_auth ha ho hs) ▸ hu, hst ▸ hr⟩
  obtain ⟨e, he, hsc⟩ := hb
  rcases App.step_tap_stack ha ho hs e he with he | hEN | ⟨-, htop⟩
  · exact ⟨e, he, hsc⟩
  · rw [hEN] at hsc
    cases hsc
  · obtain ⟨x, hx, hsc⟩ := Option.map_eq_some_iff.1 htop
    exact ⟨x, List.mem_of_mem_head? hx, by rw [hsc]; rfl⟩

/-- **A step that meets the condition keeps the invariant.** -/
theorem RegInv.step (h : RegInv s) (hf : s.Formed) (hx : Sourced s x) (hc : RegCond (s, x) a)
    (hs : Mazdoor.step debug s a = some s') : RegInv s' := by
  refine ⟨?_, h.step_tasks hf hc hs, h.step_pending hx hc hs⟩
  change s'.BehindRegistration → s'.Vouched
  -- beside the taps, only a continuation or a relaunch changes the stack
  have keep : s'.auth = s.auth → s'.stack = s.stack → s'.BehindRegistration → s'.Vouched := by
    intro hauth hst hb
    obtain ⟨u, hu, hr⟩ := h.stack (hb.of_subset (hst ▸ List.Subset.refl _))
    exact ⟨u, hauth ▸ hu, hr.step h hf hs⟩
  cases App.step_stepped hs with
  | tap ha => exact h.tap_stack ha hs
  | resume ht hr => exact h.resume_stack (List.mem_of_getElem? ht) (hc _ ht) hr
  | relaunch =>
    rintro ⟨e, he, hsc⟩
    obtain rfl := List.mem_singleton.1 he
    simp [Screen.isRegistered] at hsc
  | dispose | located | geocode | commit | reject => exact keep rfl rfl

end

/-- **Home screens are behind the registration.**  In a run whose steps meet
    `RegCond`, whenever `DashBoard` or `UserMap` is on top, the signed-in account
    has a profile with a name and a phone number. -/
theorem home_of_regCond {debug : Bool} {accounts : List Uid} {store : Store} {acts : List Action}
    {s : App} (hc : Along (traced debug) RegCond (App.launch accounts store, {}) acts)
    (hr : run (step debug) (App.launch accounts store) acts = some s) :
    ∀ sc ∈ s.top, sc.isHome → s.Vouched := by
  let I (x : App × Traces) : Prop := (RegInv x.1 ∧ x.1.Formed) ∧ Sourced x.1 x.2
  have h₀ : I (App.launch accounts store, {}) :=
    ⟨⟨.launch _ _, App.formed_launch _ _⟩, .launch _ _⟩
  have hstep : ∀ x a y, I x → RegCond x a → traced debug x a = some y → I y := by
    rintro x a y ⟨⟨h, hf⟩, hx⟩ hC hs
    obtain ⟨hs, hy⟩ := withGhost_eq_some.1 hs
    exact ⟨⟨h.step hf hx hC hs, hf.step hs⟩, hy ▸ hx.step hs⟩
  have hI : I (s, Traces.after debug (App.launch accounts store) acts) :=
    run_invariant hstep h₀ hc (run_withGhost hr)
  intro sc hsc hhome
  obtain ⟨e, he, rfl⟩ := Option.map_eq_some_iff.1 hsc
  refine hI.1.1.stack ⟨e, List.mem_of_mem_head? he, ?_⟩
  revert hhome
  cases e.screen <;> simp [Screen.isHome, Screen.isRegistered]

/-- A Facebook registration through to the map, and a second launch. -/
def registeredTour : List Action :=
  [.resume 0 .done, .facebookSignIn, .resume 0 .done, .resume 0 (.credential "A"), .resume 0 .done,
    .pickProfileImage, .resume 0 .done, .continueProfile, .resume 0 (.form "Ahmad" "03001234567"),
    .resume 0 (.url "u"), .resume 0 .done, .commit 0, .resume 0 .done, .continueLocation,
    .resume 1 .done, .resume 1 .done, .resume 1 .done, .resume 1 .done, .openMap, .relaunch,
    .resume 0 .done]

theorem registeredTour_home :
    ∃ s, run (step false) (App.launch [] ∅) registeredTour = some s ∧
      s.top = some .dashBoard ∧ s.auth = some "A" ∧ ∀ sc ∈ s.top, sc.isHome → s.Vouched :=
  ⟨_, rfl, by decide, by decide, @home_of_regCond false [] ∅ registeredTour _ (by decide) rfl⟩

end Mazdoor
