/-
  Which device writes a user's record.

  A device writes registrations, locations and requests under the uid in its
  preferences, and only the branch of a first-time account stores one there.

  * `Task.carries`, `App.Holds`: the uids that a device holds or is about to
    write under; `App.Wrote`: the documents that it has written under such a uid;
  * `holds_step`, `wrote_step`: what a step adds is a uid, or a generated id,
    that nobody had before;
  * `single_writer`: in every run of a fleet a record is written by one device,
    the one that brought the account, or the id, into being;
  * `returning_profile_unchanged`: the record of an account that existed before
    the run is written by none, and its profile stays.
-/
import Mazdoor.Ledger
import Mazdoor.Account
import Mazdoor.Addressing

namespace Mazdoor

open Transition

/-- The user's document that a write of the sites with the stored key addresses. -/
def Site.keyed : Site → Option Seg
  | .registration id | .location id | .fromUser _ id => some id
  | .picture _ | .laborRequest _ => none

/-- The device holds `u`, or something that it has started carries it. -/
inductive App.Holds (s : App) (u : Uid) : Prop
  | key (h : s.prefs.currentUserId = some u)
  | task {t : Task} (ht : t ∈ s.tasks) (h : t.carries = some u)
  | callback {w : Write} {t : Task} (hw : w ∈ s.pending) (ht : t ∈ w.onDone ∨ t ∈ w.onError)
    (h : t.carries = some u)

/-- The device has issued a write to the record `id`. -/
def App.Wrote (s : App) (id : Seg) : Prop := ∃ x ∈ s.issued, x.1.keyed = some id

instance (s : App) (id : Seg) : Decidable (s.Wrote id) :=
  inferInstanceAs (Decidable (∃ x ∈ s.issued, _))

/-- What a device owns: the uids that it holds, and the records that it has written. -/
def App.Owns (s : App) (id : Seg) : Prop := (∃ u, id = .name u ∧ s.Holds u) ∨ s.Wrote id

/-- An account exists, or an id has been generated. -/
def Backend.Taken (b : Backend) : Seg → Prop
  | .name u => u ∈ b.accounts
  | .auto n => n < b.nextAuto

/-- The step `a` signs in the account for the first time, or generates the id. -/
def Backend.Takes (b : Backend) (a : Action) (b' : Backend) : Seg → Prop
  | .name u => u ∉ b.accounts ∧ ∃ i, a = .resume i (.credential u)
  | .auto n => b.nextAuto ≤ n ∧ n < b'.nextAuto

section
variable {debug : Bool} {s s' : App} {t t' : Task} {r : Reply} {a : Action} {u : Uid}

/-! ## Steps -/

theorem carries_of_isInit (h : t.isInit) : t.carries = none := by
  cases t <;> simp only [Task.isInit, reduceCtorEq] at h <;> rfl

theorem carries_of_starts (h : a.Starts s t) : t.carries = none := by
  unfold Action.Starts at h
  split at h <;> first | rfl | exact h.elim

theorem carries_of_started {k : ℕ} (h : s.Started k t) : t.carries = none := by
  obtain ⟨-, sc, h⟩ := h
  exact carries_of_isInit (App.isInit_of_mem_initTasks h)

/-- A continuation hands on the uid that it carries, reads the stored one, or
    signs in an account for the first time. -/
theorem carries_of_spawns (h : t.Spawns s r t') (hu : t'.carries = some u) :
    t.carries = some u ∨ s.prefs.currentUserId = some u ∨ r = .credential u ∧ u ∉ s.accounts := by
  unfold Task.Spawns at h
  split at h
  case h_7 k uid | h_9 k uid =>
    subst h
    by_cases hn : s.isNewUser uid
    · rw [hn] at hu
      obtain rfl := Option.some.inj hu
      exact Or.inr (Or.inr ⟨rfl, by simpa [App.isNewUser] using hn⟩)
    · rw [Bool.not_eq_true] at hn
      rw [hn] at hu
      cases hu
  case h_12 => subst h; exact Or.inr (Or.inl hu)
  case h_14 => subst h; exact Or.inl hu
  all_goals first
    | exact h.elim
    | (subst h; cases hu)
    | (rcases h with rfl | rfl <;> cases hu)
    | (obtain ⟨_, -, rfl⟩ := h; cases hu)

/-- Firebase's credential is for an account. -/
theorem mem_accounts_of_credential (h : App.resume debug s t (.credential u) = some s') :
    u ∈ s'.accounts := by
  cases t <;> simp only [App.resume, Option.some.injEq, reduceCtorEq] at h <;> subst h <;>
    exact List.mem_cons_self

/-- Only the branch of a first-time account stores a uid. -/
theorem resume_currentUserId (h : App.resume debug s t r = some s')
    (hu : s'.prefs.currentUserId = some u) :
    s.prefs.currentUserId = some u ∨ t.carries = some u := by
  cases resume_account h with
  | keep h =>
    have hp : s'.prefs = s.prefs := congrArg (·.2.2.2) h
    exact Or.inl (hp ▸ hu)
  | form name phone _ h =>
    have hp : s'.prefs = { s.prefs with userName := some name } := congrArg (·.2.2.2) h
    rw [hp] at hu
    exact Or.inl hu
  | signIn uid ht h =>
    have hp : s'.prefs = { s.prefs with currentUserId := some uid } := congrArg (·.2.2.2) h
    rw [hp] at hu
    exact Or.inr (ht.trans hu)

/-- The callbacks of an issued write carry what the device holds. -/
theorem carries_of_issues {w : Write} (h : t.Issues s w) (ht : t' ∈ w.onDone ∨ t' ∈ w.onError)
    (hu : t'.carries = some u) : s.prefs.currentUserId = some u := by
  cases t <;> simp only [Task.Issues] at h
  case addPhoneNumber =>
    subst h
    simp only [Option.mem_def, Option.some.injEq, reduceCtorEq, or_false] at ht
    subst ht
    cases hu
  case locationStore => subst h; simp at ht
  case tap =>
    obtain ⟨key, -, rfl⟩ := h
    simp only [Option.mem_def, Option.some.injEq, or_self] at ht
    subst ht
    exact hu
  case tapProfile => obtain ⟨v, -, d, -, rfl⟩ := h; simp at ht
  case picQuery => obtain ⟨p, -, rfl⟩ := h; simp at ht

/-- **A new uid.**  A device comes to hold a uid only when it signs in an account
    that did not exist. -/
theorem holds_step (hs : step debug s a = some s') (h : s'.Holds u) :
    s.Holds u ∨ u ∉ s.accounts ∧ u ∈ s'.accounts := by
  cases App.step_stepped hs with
  | tap ha ht =>
    cases h with
    | key h => exact Or.inl (.key (ht.prefs ▸ h))
    | @task t h hu =>
      obtain ⟨ts, hts, hst⟩ := ht.tasks
      rw [hts] at h
      rcases List.mem_append.1 h with h | h
      · exact Or.inl (.task h hu)
      · rcases hst t h with h | h
        · rw [carries_of_starts h] at hu
          cases hu
        · rw [carries_of_started h] at hu
          cases hu
    | callback hw ht' hu => exact Or.inl (.callback (ht.pending ▸ hw) ht' hu)
  | relaunch =>
    cases h with
    | key h => exact Or.inl (.key h)
    | task h hu =>
      rw [List.mem_singleton.1 h] at hu
      cases hu
    | callback hw ht' hu =>
      obtain ⟨w₀, -, rfl⟩ := List.mem_map.1 hw
      simp at ht'
  | dispose | located =>
    cases h with
    | key h => exact Or.inl (.key h)
    | task h hu => exact Or.inl (.task h hu)
    | callback hw ht' hu => exact Or.inl (.callback hw ht' hu)
  | geocode =>
    cases h with
    | key h => exact Or.inl (.key h)
    | task h hu =>
      rcases List.mem_append.1 h with h | h
      · exact Or.inl (.task h hu)
      · rw [List.mem_singleton.1 h] at hu
        cases hu
    | callback hw ht' hu => exact Or.inl (.callback hw ht' hu)
  | @resume i r t _ ht hr =>
    have hR := App.resume_resumed hr
    have htask := List.mem_of_getElem? ht
    cases h with
    | key h =>
      rcases resume_currentUserId hr h with h | h
      · exact Or.inl (.key h)
      · exact Or.inl (.task htask h)
    | task h hu =>
      rcases hR.tasks _ h with h | h | h
      · exact Or.inl (.task (List.mem_of_mem_eraseIdx h) hu)
      · rcases carries_of_spawns h hu with h | h | ⟨rfl, hn⟩
        · exact Or.inl (.task htask h)
        · exact Or.inl (.key h)
        · exact Or.inr ⟨hn, mem_accounts_of_credential hr⟩
      · rw [carries_of_started h] at hu
        cases hu
    | callback hw ht' hu =>
      rcases hR.issues with hp | ⟨-, w', hp, hw'⟩ <;> rw [hp] at hw
      · exact Or.inl (.callback hw ht' hu)
      · rcases List.mem_append.1 hw with hw | hw
        · exact Or.inl (.callback hw ht' hu)
        · rw [List.mem_singleton.1 hw] at ht'
          exact Or.inl (.key (carries_of_issues hw' ht' hu))
  | commit hw =>
    cases h with
    | key h => exact Or.inl (.key h)
    | task h hu =>
      rcases List.mem_append.1 h with h | h
      · exact Or.inl (.task h hu)
      · exact Or.inl (.callback (List.mem_of_getElem? hw) (Or.inl (Option.mem_toList.1 h)) hu)
    | callback hw ht' hu => exact Or.inl (.callback (List.mem_of_mem_eraseIdx hw) ht' hu)
  | reject hw =>
    cases h with
    | key h => exact Or.inl (.key h)
    | task h hu =>
      rcases List.mem_append.1 h with h | h
      · exact Or.inl (.task h hu)
      · exact Or.inl (.callback (List.mem_of_getElem? hw) (Or.inr (Option.mem_toList.1 h)) hu)
    | callback hw ht' hu => exact Or.inl (.callback (List.mem_of_mem_eraseIdx hw) ht' hu)

theorem mem_issued {x : Site × Fields} :
    x ∈ s.issued ↔ ∃ who, .issued x.1 x.2 who ∈ s.log := by
  obtain ⟨site, fields⟩ := x
  simp only [App.issued, List.mem_filterMap]
  constructor
  · rintro ⟨e, he, h⟩
    cases e <;> simp only [Event.issues, Option.some.injEq, Prod.mk.injEq, reduceCtorEq] at h
    obtain ⟨rfl, rfl⟩ := h
    exact ⟨_, he⟩
  · rintro ⟨who, he⟩
    exact ⟨_, he, rfl⟩

/-- A keyed write addresses the uid that its task carries or the stored one, or
    else the id that is generated next. -/
theorem keyed_of_issues {w : Write} {id : Seg} (hw : t.Issues s w) (hk : w.site.keyed = some id)
    (hr : App.resume debug s t r = some s') (hf : r ≠ .failed) :
    (∃ u, id = .name u ∧ (t.carries = some u ∨ s.prefs.currentUserId = some u)) ∨
      id = .auto s.nextAuto ∧ s.nextAuto < s'.nextAuto := by
  cases t <;> simp only [Task.Issues] at hw
  case addPhoneNumber k who =>
    subst hw
    obtain rfl := Option.some.inj hk
    cases r <;> simp only [App.resume, Option.some.injEq, reduceCtorEq] at hr
    · subst hr
      cases hc : s.prefs.currentUserId with
      | none => exact Or.inr ⟨rfl, by simp⟩
      | some u => exact Or.inl ⟨u, rfl, Or.inr rfl⟩
    · exact absurd rfl hf
  case locationStore k who uid =>
    subst hw
    obtain rfl := Option.some.inj hk
    cases r <;> simp only [App.resume, Option.some.injEq, reduceCtorEq] at hr
    · subst hr
      cases uid with
      | none => exact Or.inr ⟨rfl, by simp⟩
      | some u => exact Or.inl ⟨u, rfl, Or.inl rfl⟩
    · exact absurd rfl hf
  case tap => obtain ⟨key, -, rfl⟩ := hw; cases hk
  case tapProfile key who uid =>
    obtain ⟨u, hu, d, -, rfl⟩ := hw
    obtain rfl := Option.some.inj hk
    exact Or.inl ⟨u, rfl, Or.inl hu⟩
  case picQuery => obtain ⟨p, -, rfl⟩ := hw; cases hk

/-- **A new record.**  A device writes under a uid that it holds, or to a record
    whose id is generated for the write. -/
theorem wrote_step {id : Seg} (hs : step debug s a = some s') (h : s'.Wrote id) :
    s.Owns id ∨ ¬ s.backend.Taken id ∧ s'.backend.Taken id := by
  obtain ⟨x, hx, hk⟩ := h
  obtain ⟨who, he⟩ := mem_issued.1 hx
  rcases App.step_issued hs he with he | ⟨i, r, rfl, t, ht, w, hw, hsite, -, -⟩
  · exact Or.inl (Or.inr ⟨x, mem_issued.2 ⟨who, he⟩, hk⟩)
  · have hr : App.resume debug (s.dequeue i) t r = some s' := by
      simpa [step, show s.tasks[i]? = some t from ht] using hs
    by_cases hf : r = .failed
    · subst hf
      obtain rfl : s.dequeue i = s' := by simpa [App.resume] using hr
      exact Or.inl (Or.inr ⟨x, hx, hk⟩)
    · rcases keyed_of_issues (s := s.dequeue i) hw (hsite ▸ hk) hr hf with ⟨u, rfl, hu⟩ | ⟨rfl, hn⟩
      · refine Or.inl (Or.inl ⟨u, rfl, ?_⟩)
        rcases hu with hu | hu
        · exact .task (List.mem_of_getElem? ht) hu
        · exact .key hu
      · exact Or.inr ⟨lt_irrefl _, hn⟩

/-- **Acquisition.**  What a device newly owns was free before. -/
theorem owns_step {id : Seg} (hs : step debug s a = some s') (h : s'.Owns id) :
    s.Owns id ∨ ¬ s.backend.Taken id ∧ s'.backend.Taken id := by
  rcases h with ⟨u, rfl, h⟩ | h
  · exact (holds_step hs h).imp (fun h => Or.inl ⟨u, rfl, h⟩) id
  · exact wrote_step hs h

theorem taken_step {id : Seg} (hs : step debug s a = some s') (h : s.backend.Taken id) :
    s'.backend.Taken id := by
  cases id with
  | name u => exact App.step_accounts hs h
  | auto n => exact Nat.lt_of_lt_of_le h (App.step_nextAuto hs)

/-- What is taken by a step is an account that it signs in, or an id that it generates. -/
theorem takes_step {id : Seg} (hs : step debug s a = some s') (hn : ¬ s.backend.Taken id)
    (h : s'.backend.Taken id) : s.backend.Takes a s'.backend id := by
  cases id with
  | name u => exact ⟨hn, (App.mem_accounts_step hs h).resolve_left hn⟩
  | auto n => exact ⟨not_lt.1 hn, h⟩

theorem Holds.on {b : Backend} (h : (s.on b).Holds u) : s.Holds u := by
  cases h with
  | key h => exact .key h
  | task ht h => exact .task ht h
  | callback hw ht h => exact .callback hw ht h

theorem owns_on {b : Backend} {id : Seg} (h : (s.on b).Owns id) : s.Owns id :=
  h.imp (fun ⟨u, hid, h⟩ => ⟨u, hid, Holds.on h⟩) fun h => h

theorem not_owns_launch (accounts : List Uid) (store : Store) (id : Seg) :
    ¬ (App.launch accounts store).Owns id := by
  rintro (⟨u, -, h⟩ | ⟨x, hx, -⟩)
  · cases h with
    | key h => cases h
    | task ht h =>
      rw [List.mem_singleton.1 ht] at h
      cases h
    | callback hw => cases hw
  · cases hx

end

/-! ## Pictures -/

/-- The profile `id` has no `uid` field, by which `updateProfilePic` would find it. -/
def NoUid (id : Seg) (st : Store) : Prop := ∀ d ∈ st.lookup (usersInfo id), d "uid" = none

instance (id : Seg) (st : Store) : Decidable (NoUid id st) :=
  inferInstanceAs (Decidable (∀ d ∈ st.lookup (usersInfo id), _))

theorem noUid_of_none {id : Seg} {st : Store} (h : st.lookup (usersInfo id) = none) :
    NoUid id st := fun d hd => by
  rw [h] at hd
  cases hd

/-- No picture is on its way to the profile `id`. -/
structure Unpictured (id : Seg) (s : App) : Prop where
  formed : s.Formed
  uid : NoUid id s.store
  issued : ∀ x ∈ s.issued, x.1 ≠ .picture id

section
variable {debug : Bool} {s s' : App} {a : Action} {id : Seg}

theorem NoUid.write {st : Store} {w : Write} (h : NoUid id st) (hw : w.Formed)
    (ha : w.site.accepted st) : NoUid id (w.site.write st w.fields) := by
  intro d hd
  rw [Site.lookup_write _ _ _ _ ha, Option.mem_def] at hd
  split_ifs at hd with hu
  · obtain rfl := Option.some.inj hd
    rw [DocStore.merge_of_notMem hw.uid_notMem]
    cases hl : st.lookup (usersInfo id) with
    | none => rfl
    | some d => exact h d hl
  · exact h d hd

/-- A picture goes to a profile that the query for a `uid` has found. -/
theorem uid_of_issues {t : Task} {w : Write} (hw : t.Issues s w) (hs : w.site = .picture id) :
    ∃ d ∈ s.profile id, d "uid" ≠ none := by
  cases t <;> simp only [Task.Issues] at hw
  case picQuery u uid who =>
    obtain ⟨p, hp, rfl⟩ := hw
    obtain ⟨d, hd, hu, hn, hc⟩ := DocStore.mem_query hp
    obtain rfl := Site.picture.inj hs
    have hlast : p.getLast?.getD (.name "") = p.getLast hn := by
      rw [List.getLast?_eq_getLast_of_ne_nil hn, Option.getD_some]
    have hpath : usersInfo (p.getLast hn) = p := by
      rw [usersInfo, ← List.singleton_append, ← hc, List.dropLast_append_getLast]
    refine ⟨d, ?_, by simp [hu]⟩
    rw [hlast, App.profile, hpath]
    exact hd
  case addPhoneNumber => subst hw; cases hs
  case locationStore => subst hw; cases hs
  case tap => obtain ⟨key, -, rfl⟩ := hw; cases hs
  case tapProfile => obtain ⟨u, -, d, -, rfl⟩ := hw; cases hs

theorem Unpictured.step (h : Unpictured id s) (hs : Mazdoor.step debug s a = some s') :
    Unpictured id s' := by
  refine ⟨h.formed.step hs, ?_, fun x hx hp => ?_⟩
  · rcases App.step_cases hs with ⟨hst, -⟩ | ⟨j, -, w, hw, ha, rfl⟩
    · exact hst ▸ h.uid
    · exact h.uid.write (h.formed w (List.mem_of_getElem? hw)) ha
  · obtain ⟨who, he⟩ := mem_issued.1 hx
    rcases App.step_issued hs he with he | ⟨i, r, -, t, -, w, hw, hsite, -, -⟩
    · exact h.issued x (mem_issued.2 ⟨who, he⟩) hp
    · obtain ⟨d, hd, hu⟩ := uid_of_issues hw (hsite.trans hp)
      exact hu (h.uid d hd)

theorem Unpictured.launch (accounts : List Uid) {store : Store} (h : NoUid id store) :
    Unpictured id (App.launch accounts store) :=
  ⟨App.formed_launch _ _, h, fun _ hx => by cases hx⟩

/-- A pending write to a profile that no picture is on its way to is keyed. -/
theorem Unpictured.wrote {w : Write} (h : Unpictured id s) (hb : Balanced s)
    (hw : w ∈ s.pending) (hu : w.site.user = some id) : s.Wrote id := by
  have hx := hb.mem_issued_of_pending hw
  refine ⟨_, hx, ?_⟩
  have hne : w.site ≠ .picture id := h.issued _ hx
  show w.site.keyed = some id
  cases hsite : w.site <;> rw [hsite] at hu hne <;>
    simp only [Site.user, Option.some.injEq, reduceCtorEq] at hu <;> subst hu
  · rfl
  · rfl
  · exact absurd rfl hne

end

/-! ## Runs -/

section
variable {debug : Bool} {ι : Type} [DecidableEq ι] {accounts : List Uid} {store : Store}
  {n : Fleet ι} {as : List (ι × Action)}

theorem owner_of_run (hr : run (Fleet.step debug) (Fleet.launch accounts store) as = some n) :
    (∀ i id, (n.app i).Owns id → ¬ Backend.Taken ⟨accounts, store, 0⟩ id) ∧
      ∀ i j id, (n.app i).Owns id → (n.app j).Owns id → i = j :=
  Shared.run_owner (M := device debug) (n := Fleet.launch accounts store)
    (fun _ _ _ _ hs h => owns_step hs h)
    (fun _ _ _ _ hs h => taken_step hs h) (fun _ _ _ h => owns_on h)
    (fun _ id => not_owns_launch accounts store id) hr

/-- **Single writer.**  In every run of a fleet, whatever accounts sign in on
    which devices, all registrations, locations and requests that are addressed to
    one user's record are issued by one device: the one that signed in the account
    for the first time, or that generated the id of the record. -/
theorem single_writer (hr : run (Fleet.step debug) (Fleet.launch accounts store) as = some n)
    {i : ι} {id : Seg} (hi : (n.app i).Wrote id) :
    (∀ j, (n.app j).Wrote id → j = i) ∧
      ∃ as₁ a as₂ m m', as = as₁ ++ (i, a) :: as₂ ∧
        run (Fleet.step debug) (Fleet.launch accounts store) as₁ = some m ∧
        Fleet.step debug m (i, a) = some m' ∧ m.shared.Takes a m'.shared id := by
  refine ⟨fun j hj => (owner_of_run hr).2 j i id (Or.inr hj) (Or.inr hi), ?_⟩
  exact Shared.exists_acquired (M := device debug) (O := (App.Owns · id))
    (F := fun s a s' => s.backend.Takes a s'.backend id)
    (fun _ _ _ hs h => (owns_step hs h).imp_right fun h => takes_step hs h.1 h.2)
    (fun _ _ h => owns_on h) (not_owns_launch accounts store id) hr (Or.inr hi)

theorem single_writer_twoDevices :
    ∃ n : Fleet ℕ, run (Fleet.step true) (Fleet.launch [] ∅) twoDevices = some n ∧
      (∀ j, (n.app j).Wrote (.name "A") → j = 0) ∧
        ∃ as₁ a as₂ m m', twoDevices = as₁ ++ (0, a) :: as₂ ∧
          run (Fleet.step true) (Fleet.launch [] ∅) as₁ = some m ∧
          Fleet.step true m (0, a) = some m' ∧ m.shared.Takes a m'.shared (.name "A") :=
  ⟨_, rfl, @single_writer true ℕ _ [] ∅ _ twoDevices rfl 0 (.name "A") (by decide)⟩

/-- What the devices keep while they do not own the record of the account `u`. -/
structure Foreign (u : Uid) (s : App) : Prop where
  account : u ∈ s.accounts
  owns : ¬ s.Owns (.name u)
  books : Balanced s
  unpictured : Unpictured (.name u) s

theorem Foreign.step {u : Uid} {s s' : App} {a : Action} (h : Foreign u s)
    (hs : Mazdoor.step debug s a = some s') :
    Foreign u s' ∧ s'.profile (.name u) = s.profile (.name u) := by
  refine ⟨⟨App.step_accounts hs h.account, fun ho => ?_, h.books.step hs,
    h.unpictured.step hs⟩, ?_⟩
  · exact (owns_step hs ho).elim h.owns fun hn => hn.1 h.account
  · rcases App.step_cases hs with ⟨hst, -⟩ | ⟨j, -, w, hw, ha, rfl⟩
    · rw [App.profile, hst, App.profile]
    · rw [App.profile, App.commit_store, App.answer_store, Site.lookup_write _ _ _ _ ha, if_neg]
      · rfl
      · exact fun hu =>
          h.owns (Or.inr (h.unpictured.wrote h.books (List.mem_of_getElem? hw) hu))

/-- What no device owns is not changed. -/
theorem profile_of_foreign {u : Uid} (hu : u ∈ accounts) (hn : NoUid (.name u) store)
    (hr : run (Fleet.step debug) (Fleet.launch accounts store) as = some n) :
    n.shared.store.lookup (usersInfo (.name u)) = store.lookup (usersInfo (.name u)) := by
  refine Shared.run_shared (M := device debug) (J := fun _ => Foreign u)
    (G := fun b b' => (u ∈ b.accounts → u ∈ b'.accounts) ∧
      (NoUid (.name u) b.store → NoUid (.name u) b'.store))
    (H := fun b _ => b.store.lookup (usersInfo (.name u)) = store.lookup (usersInfo (.name u)))
    (fun i s a s' h hs => ⟨(h.step hs).1, fun h => App.step_accounts hs h, fun _ =>
      (h.step hs).1.unpictured.uid⟩) (fun i s b h hG => ?_)
    (fun i s a s' _ h _ hH hs => (h.step hs).2.trans hH) (fun i => ?_) (fun _ => rfl) rfl hr
  · exact ⟨hG.1 h.account, fun ho => h.owns (owns_on ho), h.books,
      h.unpictured.formed, hG.2 h.unpictured.uid, h.unpictured.issued⟩
  · exact ⟨hu, not_owns_launch _ _ _, ⟨[], List.Perm.refl _⟩, .launch _ hn⟩

/-- **Returning accounts.**  No device issues a registration, a location or a
    request for an account that existed before the run, as it is on a new phone,
    and its profile is never changed by any, unless it has a `uid` field. -/
theorem returning_profile_unchanged {u : Uid} (hu : u ∈ accounts)
    (hr : run (Fleet.step debug) (Fleet.launch accounts store) as = some n) :
    (∀ i, ¬ (n.app i).Wrote (.name u)) ∧
      (NoUid (.name u) store →
        n.shared.store.lookup (usersInfo (.name u)) = store.lookup (usersInfo (.name u))) :=
  ⟨fun i h => (owner_of_run hr).1 i _ (Or.inr h) hu, fun hn => profile_of_foreign hu hn hr⟩

/-- The profile of an account that registered before the run. -/
def registered : Store :=
  DocStore.mergeData ∅ (usersInfo (.name "A")) [("userName", .str "Ahmad"), ("userId", .str "A")]

theorem returning_registered :
    ∃ n : Fleet ℕ, run (Fleet.step true) (Fleet.launch ["A"] registered)
        (returningDevice.map (1, ·)) = some n ∧
      (∀ i, ¬ (n.app i).Wrote (.name "A")) ∧
        n.shared.store.lookup (usersInfo (.name "A")) =
          registered.lookup (usersInfo (.name "A")) :=
  ⟨_, rfl, (@returning_profile_unchanged true ℕ _ ["A"] registered _
    (returningDevice.map (1, ·)) "A" (by decide) rfl).imp_right fun h => h (by decide)⟩

end
end Mazdoor
