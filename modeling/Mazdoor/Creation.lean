/-
  The first write of a profile.

  A registration and a location store both merge, so that either of them can
  create the document of `Users_Info` that triggers `notifyUser`.

  * `Complete`: the created document has a token, a name and a phone number;
  * `created_without_token`: a Facebook registration has no token, because only
    `EnterNumber` asks for one;
  * `CreateCond` asks for the events that fill the globals before a registration
    is issued, and for the order in which the backend applies the writes;
  * `CreateInv` is the invariant, and `complete_iff_createCond` says that a run
    creates only complete profiles if and only if its steps meet the condition.
-/
import Mazdoor.Sources

namespace Mazdoor

open Transition

/-- The document that these fields create addresses a token, by name and phone. -/
def Complete (fields : Fields) : Prop :=
  ∀ k ∈ ["userToken", "userName", "userPhoneNumber"],
    field (DocStore.merge DocStore.emptyDoc fields) k ≠ .null

instance (fields : Fields) : Decidable (Complete fields) :=
  inferInstanceAs (Decidable (∀ k ∈ _, _))

/-- A write that creates a profile is complete. -/
def Event.CreatesComplete : Event → Prop
  | .created _ fields => Complete fields
  | _ => True

instance (e : Event) : Decidable e.CreatesComplete := by
  induction e using Event.casesOn <;> dsimp only [Event.CreatesComplete] <;> infer_instance

/-! ## A run that creates an incomplete profile -/

/-- A Facebook registration up to the write of the profile. -/
def facebookRegistration : List Action :=
  [.resume 0 .done, .facebookSignIn, .resume 0 .done, .resume 0 (.credential "A"), .resume 0 .done,
    .pickProfileImage, .resume 0 .done, .continueProfile, .resume 0 (.form "Ahmad" "03001234567"),
    .resume 0 (.url "u"), .resume 0 .done, .commit 0]

/-- **The claimed completeness fails**: the token of the created profile is null. -/
theorem created_without_token :
    ∃ s, run (step false) (App.launch [] ∅) facebookRegistration = some s ∧
      .created (.name "A") (registrationFields
        { userName := some "Ahmad", userPhoneNumber := some "03001234567", userId := some "A",
          userImage := some "u" }) ∈ s.log ∧
      ¬ ∀ e ∈ s.log, e.CreatesComplete := by
  refine ⟨_, rfl, ?_, ?_⟩ <;> decide

/-! ## The condition -/

/-- The profile was there at the start, or a registration of it has been applied. -/
def Known (store : Store) (x : Traces) (id : Seg) : Prop :=
  (store.lookup (usersInfo id)).isSome ∨ ∃ y ∈ x.applied, y.1 = .registration id

/-- A registration that the backend applies is not the first, or it was issued
    after `getToken` had replied to `EnterNumber` and the form was accepted, both
    since the launch.  A location follows a registration. -/
def Site.createCond (store : Store) (x : Traces) (g : Sources) : Site → Prop
  | .registration id => Known store x id ∨ g.token ∧ g.form
  | .location id => Known store x id
  | _ => True

/-- The condition of a step. -/
def CreateCond (store : Store) (x : App × Traces) : Action → Prop
  | .commit j => ∀ y ∈ x.2.answered x.1 j, y.1.createCond store x.2 y.2
  | _ => True

instance (store : Store) (x : Traces) (id : Seg) : Decidable (Known store x id) :=
  inferInstanceAs (Decidable (_ ∨ _))

instance (store : Store) (x : Traces) (g : Sources) (site : Site) :
    Decidable (site.createCond store x g) := by
  induction site using Site.casesOn <;> dsimp only [Site.createCond] <;> infer_instance

instance (store : Store) (x : App × Traces) (a : Action) : Decidable (CreateCond store x a) := by
  induction a using Action.casesOn <;> dsimp only [CreateCond] <;> infer_instance

/-! ## The invariant -/

/-- The traces are true, the profiles that exist are known, and every one of
    them was created by a complete write. -/
structure CreateInv (store : Store) (x : App × Traces) : Prop where
  sourced : Sourced x.1 x.2
  known : ∀ id, (x.1.profile id).isSome ↔ Known store x.2 id
  log : ∀ e ∈ x.1.log, e.CreatesComplete

theorem CreateInv.launch (accounts : List Uid) (store : Store) :
    CreateInv store (App.launch accounts store, {}) where
  sourced := .launch accounts store
  known id := by simp [Known, App.profile]
  log := by simp

/-- A registration is complete if its globals are. -/
theorem complete_registrationFields {g : Globals} : Complete (registrationFields g) ↔
    g.userToken.isSome ∧ g.userName.isSome ∧ g.userPhoneNumber.isSome := by
  simp [Complete, registrationFields, DocStore.merge, field, Function.update,
    Option.isSome_iff_ne_none]

theorem not_complete_locationFields (g : Globals) : ¬ Complete (locationFields g) := by
  simp [Complete, locationFields, DocStore.merge, field, Function.update, DocStore.emptyDoc]

section
variable {debug : Bool} {store : Store} {s s' : App} {x : Traces} {a : Action} {w : Write} {j : ℕ}

/-- **Registrations**: complete if they were issued after the token and the form. -/
theorem complete_of_from {id : Seg} {fields : Fields} {g : Sources}
    (h : FieldsFrom (.registration id) fields g) : Complete fields ↔ g.token ∧ g.form := by
  obtain ⟨gl, hg, rfl⟩ := h
  rw [complete_registrationFields, hg.token, hg.name, hg.phone, and_self]

variable (debug) in
/-- What the backend knows of after it has applied a write. -/
theorem CreateInv.step_known (h : CreateInv store (s, x)) (hw : s.pending[j]? = some w)
    (hc : CreateCond store (s, x) (.commit j)) (ha : w.site.accepted s.store) (id : Seg) :
    (((s.answer j).commit w).profile id).isSome ↔
      Known store (x.step debug s ((s.answer j).commit w) (.commit j)) id := by
  obtain ⟨g, hg, -⟩ := h.sourced.answered hw
  have hC : w.site.createCond store x g := hc _ hg
  have hx : (x.step debug s ((s.answer j).commit w) (.commit j)).applied =
      x.applied ++ [(w.site, g)] := by
    simp only [Traces.step, hg]
    rfl
  have hk : Known store (x.step debug s ((s.answer j).commit w) (.commit j)) id ↔
      Known store x id ∨ w.site = .registration id := by
    simp only [Known, hx, List.mem_append, List.mem_singleton, or_and_right, exists_or,
      exists_eq_left, or_assoc]
  have hp : (((s.answer j).commit w).profile id).isSome ↔
      (s.profile id).isSome ∨ w.site.user = some id := by
    rw [App.profile, App.commit_store, App.answer_store, Site.lookup_write _ _ _ _ ha]
    split_ifs with hu
    · simp [hu]
    · simp [hu, App.profile]
  have hkn := h.known id
  rw [hp, hk, hkn]
  refine or_congr_right' fun hn => ?_
  cases hs : w.site with
  | location id' =>
    refine iff_of_false (fun hu => hn ?_) (by simp)
    obtain rfl := Option.some.inj hu
    rwa [hs] at hC
  | picture id' =>
    refine iff_of_false (fun hu => hn ((h.known id).1 ?_)) (by simp)
    obtain rfl := Option.some.inj hu
    rw [hs] at ha
    exact ha
  | _ => simp [Site.user]

/-- What the backend creates is complete exactly as the condition says. -/
theorem CreateInv.creates_iff (h : CreateInv store (s, x)) (hw : s.pending[j]? = some w)
    (ha : w.site.accepted s.store) :
    (∀ e ∈ s.creation w, e.CreatesComplete) ↔ CreateCond store (s, x) (.commit j) := by
  obtain ⟨g, hg, hf⟩ := h.sourced.answered hw
  have hcc : CreateCond store (s, x) (.commit j) ↔ w.site.createCond store x g :=
    ⟨fun hc => hc _ hg, fun hc y hy => Option.some.inj (hg.symm.trans hy) ▸ hc⟩
  have hcr (id : Seg) (hu : w.site.user = some id) :
      (∀ e ∈ s.creation w, e.CreatesComplete) ↔ Known store x id ∨ Complete w.fields := by
    rw [App.creation, hu, ← h.known id]
    cases hp : s.profile id <;> simp [hp, Event.CreatesComplete]
  rw [hcc]
  cases hs : w.site with
  | registration id =>
    rw [hs] at hf hcr
    rw [hcr id rfl, complete_of_from hf, Site.createCond]
  | location id =>
    rw [hs] at hf hcr
    obtain ⟨gl, -, hgl⟩ := hf
    rw [hcr id rfl, hgl, or_iff_left (not_complete_locationFields gl), Site.createCond]
  | picture id =>
    rw [hs] at ha hcr
    rw [hcr id rfl]
    exact iff_of_true (Or.inl ((h.known id).1 ha)) trivial
  | _ => simp [App.creation, hs, Site.user, Site.createCond]

/-- A step that applies no write creates nothing. -/
theorem CreateInv.step_quiet (h : CreateInv store (s, x)) (ha : ∀ j, a ≠ .commit j)
    (hs : Mazdoor.step debug s a = some s') : CreateInv store (s', x.step debug s s' a) := by
  rcases App.step_cases hs with ⟨hst, es, hl, hes⟩ | ⟨j, rfl, -⟩
  · refine ⟨h.sourced.step hs, fun id => ?_, fun e he => ?_⟩
    · rw [App.profile, hst, Known, Traces.applied_of_ne_commit ha]
      exact h.known id
    · rcases List.mem_append.1 (hl ▸ he) with he | he
      · exact h.log e he
      · have hb := hes e he
        cases e with
        | created => cases hb
        | _ => trivial
  · exact absurd rfl (ha j)

/-- **A step that meets the condition keeps the invariant.** -/
theorem CreateInv.step (h : CreateInv store (s, x)) (hc : CreateCond store (s, x) a)
    (hs : Mazdoor.step debug s a = some s') : CreateInv store (s', x.step debug s s' a) := by
  by_cases ha : ∀ j, a ≠ .commit j
  · exact h.step_quiet ha hs
  simp only [not_forall, not_not] at ha
  obtain ⟨j, rfl⟩ := ha
  cases App.step_stepped hs with
  | commit hw hacc =>
    refine ⟨h.sourced.step hs, h.step_known debug hw hc hacc, ?_⟩
    refine List.forall_mem_append.2 ⟨h.log, List.forall_mem_cons.2 ⟨trivial, ?_⟩⟩
    exact (h.creates_iff hw hacc).2 hc
  | tap ha => cases ha

/-- A step that creates only complete profiles meets the condition. -/
theorem CreateInv.createCond (h : CreateInv store (s, x)) (hs : Mazdoor.step debug s a = some s')
    (hl : ∀ e ∈ s'.log, e.CreatesComplete) : CreateCond store (s, x) a := by
  cases a with
  | commit j =>
    cases App.step_stepped hs with
    | commit hw hacc =>
      refine (h.creates_iff hw hacc).1 fun e he => hl e ?_
      exact List.mem_append_right _ (List.mem_cons_of_mem _ he)
    | tap ha => cases ha
  | _ => trivial

end

/-- **Complete creations.**  Every write of a run that creates a profile carries a
    token, a name and a phone number if and only if the run meets `CreateCond`. -/
theorem complete_iff_createCond {debug : Bool} {accounts : List Uid} {store : Store}
    {acts : List Action} {s : App}
    (hr : run (step debug) (App.launch accounts store) acts = some s) :
    (∀ e ∈ s.log, e.CreatesComplete) ↔
      Along (traced debug) (CreateCond store) (App.launch accounts store, {}) acts :=
  holds_iff_along_ghost (I := CreateInv store) (P := fun s => ∀ e ∈ s.log, e.CreatesComplete)
    (fun _ _ _ hs h e he => h e (App.step_log hs he)) (fun _ h => h.log)
    (fun _ _ _ h hc hs => h.step hc hs) (fun _ _ _ h hs hl => h.createCond hs hl)
    (.launch accounts store) hr

/-- A phone registration whose token arrives before `EnterNumber` is left. -/
def phoneRegistrationWithToken : List Action :=
  [.resume 0 .done, .openEnterNumber, .resume 0 .done, .resume 0 (.token "t"), .continuePhone,
    .resume 0 .codeSent, .doneOTP, .resume 1 .done, .resume 1 .done, .resume 1 .done,
    .resume 1 (.credential "A"), .resume 1 .done, .pickProfileImage, .resume 1 .done,
    .continueProfile, .resume 1 (.form "Ahmad" "03001234567"), .resume 1 (.url "u"),
    .resume 1 .done, .commit 0, .resume 1 .done, .continueLocation, .resume 2 .done,
    .resume 2 .done, .resume 2 .done, .commit 0]

theorem phoneRegistrationWithToken_complete :
    ∃ s, run (step false) (App.launch [] ∅) phoneRegistrationWithToken = some s ∧
      .created (.name "A") (registrationFields
        { userName := some "Ahmad", userPhoneNumber := some "03001234567", userId := some "A",
          userImage := some "u", userToken := some "t" }) ∈ s.log ∧
      ∀ e ∈ s.log, e.CreatesComplete :=
  ⟨_, rfl, by decide,
    (@complete_iff_createCond false [] ∅ phoneRegistrationWithToken _ rfl).2 (by decide)⟩

end Mazdoor
