/-
  Names and phone numbers that went through the form.

  * `VettedPair`: a name and a phone number that the validators of the form have
    accepted together, or two nulls;
  * `resume_names`, `resume_greeting`: only an accepted form sets the name, and
    only `UserLocation` shows it;
  * `Vetted`: the device's own copies, its writes and the documents hold vetted
    pairs, and every greeting is a vetted name;
  * `vetted_of_run`: so they do in every run of a fleet.
-/
import Mazdoor.History

namespace Mazdoor

open Transition DocStore

/-- A name and a phone number that passed the form together, or neither of them. -/
def VettedPair : Val → Val → Prop
  | .null, .null => True
  | .str name, .str phone => validate name phone
  | _, _ => False

instance (v w : Val) : Decidable (VettedPair v w) := by
  induction v using Val.casesOn <;> induction w using Val.casesOn <;> dsimp only [VettedPair] <;>
    infer_instance

/-- Profiles and requests hold vetted pairs. -/
structure VettedStore (st : Store) : Prop where
  profile : ∀ id d, st.lookup (usersInfo id) = some d →
    VettedPair (field d "userName") (field d "userPhoneNumber")
  request : ∀ p d, st.lookup (.name "Labor_Requests" :: p) = some d →
    VettedPair (field d "userName") (field d "userPhone")

/-- The name and the phone number of the app, and the stored name. -/
def App.names (s : App) : Option String × Option String × Option String :=
  (s.global.userName, s.global.userPhoneNumber, s.prefs.userName)

section
variable {debug : Bool} {s s' : App} {t : Task} {r : Reply} {k : ℕ} {a : Action}

/-- Only a form that the validators accept sets the names. -/
theorem resume_names (h : App.resume debug s t r = some s') :
    s'.names = s.names ∨ ∃ name phone, validate name phone ∧
      s'.names = (some name, some phone, some name) := by
  have of (x : Option String × Option String × Option Uid × Prefs) (hx : s'.account = x) :
      s'.names = (x.1, x.2.1, x.2.2.2.userName) := by
    subst hx
    rfl
  cases resume_account h with
  | keep h => exact Or.inl (of _ h)
  | form name phone hv h => exact Or.inr ⟨name, phone, hv, of _ h⟩
  | signIn uid _ h => exact Or.inl (of _ h)

theorem greeting_notMem_stateError (s : App) (k : ℕ) (u : Option String) :
    .greeting u ∉ s.stateError k := fun h => by cases App.eq_of_mem_stateError h

/-- `UserLocation` greets by the stored name, and nothing else greets. -/
theorem resume_greeting {u : Option String} (h : App.resume debug s t r = some s')
    (he : .greeting u ∈ s'.log) : .greeting u ∈ s.log ∨ u = s.prefs.userName := by
  unfold App.resume at h
  split at h <;> simp only [Option.some.injEq, reduceCtorEq] at h <;> subst h
  case h_28 k =>
    rcases List.mem_append.1 he with he | he
    · rcases List.mem_append.1 he with he | he
      · exact Or.inl he
      · exact absurd he (greeting_notMem_stateError _ _ _)
    · split at he
      · exact Or.inr (Event.greeting.inj (List.mem_singleton.1 he))
      · cases he
  all_goals refine Or.inl ?_
  all_goals first
    | exact he
    | simpa [App.withContext, apply_ite App.log, greeting_notMem_stateError] using he
    | (split at he <;> simpa using he)

/-! ## The invariant -/

/-- A write puts a vetted pair into a profile or a request. -/
def Write.VettedFields (w : Write) : Prop :=
  match w.site with
  | .registration _ => ∃ g : Globals, w.fields = registrationFields g ∧
      VettedPair (.ofString g.userName) (.ofString g.userPhoneNumber)
  | .fromUser _ _ => ∃ d : Doc, w.fields = fromUserFields d ∧
      VettedPair (field d "userName") (field d "userPhoneNumber")
  | _ => True

/-- The device's copies, its writes, what it greets by, and the documents. -/
structure Vetted (s : App) : Prop where
  formed : s.Formed
  global : VettedPair (.ofString s.global.userName) (.ofString s.global.userPhoneNumber)
  prefs : ∀ name ∈ s.prefs.userName, validateUserName name = none
  pending : ∀ w ∈ s.pending, w.VettedFields
  store : VettedStore s.store
  greeted : ∀ name, .greeting (some name) ∈ s.log → validateUserName name = none

theorem Vetted.launch (accounts : List Uid) {store : Store} (h : VettedStore store) :
    Vetted (App.launch accounts store) :=
  ⟨App.formed_launch _ _, trivial, fun _ h => (by cases h), fun _ h => (by cases h), h,
    fun _ h => (by cases h)⟩

/-- What a step does to the device's copies. -/
theorem Vetted.names (h : Vetted s) (hn : s'.names = s.names ∨ ∃ name phone, validate name phone ∧
      s'.names = (some name, some phone, some name)) :
    VettedPair (.ofString s'.global.userName) (.ofString s'.global.userPhoneNumber) ∧
      ∀ name ∈ s'.prefs.userName, validateUserName name = none := by
  simp only [App.names, Prod.mk.injEq] at hn
  rcases hn with ⟨hn, hp, hk⟩ | ⟨name, phone, hv, hn, hp, hk⟩ <;> rw [hn, hp, hk]
  · exact ⟨h.global, h.prefs⟩
  · refine ⟨hv, fun name' hname => ?_⟩
    obtain rfl := Option.some.inj hname
    exact (by simpa [validate] using hv : _ ∧ _).1

/-- The write of a continuation copies the device's pair, or the profile's. -/
theorem Vetted.issued {w : Write} (h : Vetted s) (hw : t.Issues s w) : w.VettedFields := by
  cases t <;> simp only [Task.Issues] at hw
  case addPhoneNumber => subst hw; exact ⟨_, rfl, h.global⟩
  case locationStore => subst hw; trivial
  case tap => obtain ⟨key, -, rfl⟩ := hw; trivial
  case tapProfile => obtain ⟨u, -, d, hd, rfl⟩ := hw; exact ⟨d, rfl, h.store.profile _ _ hd⟩
  case picQuery => obtain ⟨p, -, rfl⟩ := hw; trivial

/-- A profile after a write to it. -/
theorem VettedStore.merged {st : Store} {w : Write} {id : Seg} (h : VettedStore st)
    (hf : w.Formed) (hw : w.VettedFields) (hu : w.site.user = some id) :
    let d := merge ((st.lookup (usersInfo id)).getD emptyDoc) w.fields
    VettedPair (field d "userName") (field d "userPhoneNumber") := by
  have old : VettedPair (field ((st.lookup (usersInfo id)).getD emptyDoc) "userName")
      (field ((st.lookup (usersInfo id)).getD emptyDoc) "userPhoneNumber") := by
    cases hd : st.lookup (usersInfo id) with
    | none => trivial
    | some d => exact h.profile id d hd
  have hf := hf.fields
  unfold Write.FieldsOfSite at hf
  unfold Write.VettedFields at hw
  cases hs : w.site <;> rw [hs] at hu hf hw <;>
    simp only [Site.user, Option.some.injEq, reduceCtorEq] at hu <;> subst hu
  case registration =>
    obtain ⟨g, hg, hv⟩ := hw
    rw [hg]
    simpa [registrationFields, merge, field, Function.update] using hv
  case location =>
    obtain ⟨g, hg⟩ := hf
    dsimp only
    rw [field_merge_of_notMem (by simp [hg, keys, locationFields]),
      field_merge_of_notMem (by simp [hg, keys, locationFields])]
    exact old
  case picture =>
    obtain ⟨u, hu⟩ := hf
    dsimp only
    rw [field_merge_of_notMem (by simp [hu, keys, pictureFields]),
      field_merge_of_notMem (by simp [hu, keys, pictureFields])]
    exact old

theorem usersInfo_ne_request (id : Seg) (p : Path) :
    .name "Labor_Requests" :: p ≠ usersInfo id := by
  simp [usersInfo]

/-- **Documents.**  A write with a vetted pair keeps the documents vetted. -/
theorem VettedStore.write {st : Store} {w : Write} (h : VettedStore st) (hf : w.Formed)
    (hw : w.VettedFields) (ha : w.site.accepted st) : VettedStore (w.site.write st w.fields) := by
  constructor
  · intro id d hd
    rw [Site.lookup_write _ _ _ _ ha] at hd
    split_ifs at hd with hu
    · obtain rfl := Option.some.inj hd
      exact h.merged hf hw hu
    · exact h.profile id d hd
  · intro p d hd
    have hf := hf.fields
    unfold Write.FieldsOfSite at hf
    unfold Write.VettedFields at hw
    cases hs : w.site <;> rw [hs] at hd hf hw <;> simp only [Site.write, Site.path] at hd
    case registration id | location id =>
      rw [lookup_mergeData, if_neg (usersInfo_ne_request id p)] at hd
      exact h.request p d hd
    case picture id =>
      rw [lookup_updateData, if_neg (usersInfo_ne_request id p)] at hd
      exact h.request p d hd
    case laborRequest key =>
      obtain ⟨l, hl⟩ := hf
      rw [lookup_setData] at hd
      split_ifs at hd
      · obtain rfl := Option.some.inj hd
        rw [hl, field_merge_of_notMem (by simp [keys, laborRequestFields]),
          field_merge_of_notMem (by simp [keys, laborRequestFields])]
        trivial
      · exact h.request p d hd
    case fromUser key id =>
      obtain ⟨d', hd', hv⟩ := hw
      rw [lookup_setData] at hd
      split_ifs at hd
      · obtain rfl := Option.some.inj hd
        rw [hd']
        simpa [fromUserFields, merge, field, Function.update] using hv
      · exact h.request p d hd

theorem Vetted.step (h : Vetted s) (hs : Mazdoor.step debug s a = some s') : Vetted s' := by
  have hpending : ∀ w ∈ s'.pending, w.VettedFields := fun w hw => by
    rcases App.step_pending hs hw with ⟨i, -, t, -, hw⟩ | hw | ⟨w₀, hw₀, rfl⟩
    · exact h.issued hw
    · exact h.pending w hw
    · exact h.pending w₀ hw₀
  have hstore : VettedStore s'.store := by
    rcases App.step_cases hs with ⟨hst, -⟩ | ⟨j, -, w, hw, ha, rfl⟩
    · exact hst ▸ h.store
    · have hw := List.mem_of_getElem? hw
      exact h.store.write (h.formed w hw) (h.pending w hw) ha
  -- a step that leaves the names and the greetings alone
  have still (hn : s'.names = s.names) (hl : ∀ u, .greeting u ∈ s'.log → .greeting u ∈ s.log) :
      Vetted s' :=
    have hv := h.names (Or.inl hn)
    ⟨h.formed.step hs, hv.1, hv.2, hpending, hstore, fun name he => h.greeted name (hl _ he)⟩
  cases App.step_stepped hs with
  | tap _ ht =>
    refine still (by rw [App.names, ht.global, ht.prefs, App.names]) fun u he => ?_
    rcases ht.log with hl | hl <;> rw [hl] at he
    · exact he
    · simpa using he
  | relaunch =>
    exact ⟨h.formed.step hs, trivial, h.prefs, hpending, hstore, h.greeted⟩
  | dispose | reject => exact still rfl fun _ he => he
  | located | geocode => exact still rfl fun u he => by simpa using he
  | commit hw =>
    refine still rfl fun u he => (List.mem_append.1 he).resolve_right fun he => ?_
    rcases List.mem_cons.1 he with he | he
    · cases he
    · obtain ⟨_, -, -, he⟩ := App.mem_creation he
      cases he
  | resume ht hr =>
    have hn := resume_names hr
    have hv := h.names hn
    refine ⟨h.formed.step hs, hv.1, hv.2, hpending, hstore, fun name he => ?_⟩
    rcases resume_greeting hr he with he | he
    · exact h.greeted name he
    · exact h.prefs name he.symm

end

section
variable {debug : Bool} {ι : Type} [DecidableEq ι] {accounts : List Uid} {store : Store}
  {n : Fleet ι} {as : List (ι × Action)}

/-- **Vetted data.**  On a backend whose documents are vetted, in every run of a
    fleet every profile and every request has a name and a phone number that the
    form accepted together, or neither of them; so have the writes on their way,
    and every device greets by an accepted name. -/
theorem vetted_of_run (hst : VettedStore store)
    (hr : run (Fleet.step debug) (Fleet.launch accounts store) as = some n) :
    VettedStore n.shared.store ∧ ∀ i, (∀ w ∈ (n.app i).pending, w.VettedFields) ∧
      ∀ name, .greeting (some name) ∈ (n.app i).log → validateUserName name = none := by
  let G (b b' : Backend) : Prop := VettedStore b.store → VettedStore b'.store
  have own : ∀ (i : ι) (s : App) (a : Action) (s' : App), Vetted s → step debug s a = some s' →
      Vetted s' ∧ G s.backend s'.backend := fun _ _ _ _ h hs =>
    ⟨h.step hs, fun _ => (h.step hs).store⟩
  have stable : ∀ (i : ι) (s : App) (b : Backend), Vetted s → G s.backend b → Vetted (s.on b) :=
    fun _ _ _ h hG => ⟨h.formed, h.global, h.prefs, h.pending, hG h.store, h.greeted⟩
  have start : ∀ i : ι, Vetted ((Fleet.launch accounts store : Fleet ι).app i) := fun _ =>
    .launch accounts hst
  have h : ∀ i, Vetted (n.app i) := Shared.run_invariant (M := device debug) own stable start hr
  have hb : VettedStore n.shared.store := Shared.run_shared (M := device debug)
    (H := fun b _ => VettedStore b.store) own stable
    (fun _ _ _ _ _ h _ _ hs => (h.step hs).store) start (fun _ => rfl) hst hr
  exact ⟨hb, fun i => ⟨(h i).pending, (h i).greeted⟩⟩

theorem vetted_empty : VettedStore ∅ :=
  ⟨fun _ _ h => (by cases h), fun _ _ h => (by cases h)⟩

theorem vetted_twoDevices :
    ∃ n : Fleet ℕ, run (Fleet.step true) (Fleet.launch [] ∅) twoDevices = some n ∧
      VettedStore n.shared.store ∧ ∀ i, (∀ w ∈ (n.app i).pending, w.VettedFields) ∧
        ∀ name, .greeting (some name) ∈ (n.app i).log → validateUserName name = none :=
  ⟨_, rfl, @vetted_of_run true ℕ _ [] ∅ _ twoDevices vetted_empty rfl⟩

end
end Mazdoor
