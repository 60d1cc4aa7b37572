/-
  Whose record a document is.

  * `OwnId`: the `userId` of a profile is null, or the id of its document;
  * `Identified`: so is what a device registers with, because the uid in its
    globals is unset or the one in its preferences;
  * `identified_of_run`: so it is in every profile of a fleet;
  * `autoWrites_le`: a generated id is written under once;
  * `stray_of_run`: a document with a generated id is one write of one device.
-/
import Mazdoor.History

namespace Mazdoor

open Transition DocStore

/-- A profile's `userId` is null, or the id of the document. -/
def OwnId (id : Seg) (v : Val) : Prop := v = .null ∨ ∃ u, id = .name u ∧ v = .str u

def OwnIds (st : Store) : Prop :=
  ∀ id, ∀ d ∈ st.lookup (usersInfo id), OwnId id (field d "userId")

/-- A registration is signed with the id that it addresses, or not at all. -/
def Write.OwnFields (w : Write) : Prop :=
  ∀ id, w.site = .registration id →
    ∃ g, w.fields = registrationFields g ∧ OwnId id (.ofString g.userId)

/-- The globals hold the stored uid or none, and the registrations their own ids. -/
structure Identified (s : App) : Prop where
  formed : s.Formed
  account : s.global.userId = none ∨ s.global.userId = s.prefs.currentUserId
  pending : ∀ w ∈ s.pending, w.OwnFields
  store : OwnIds s.store

/-- The writes that are addressed to the record `id`. -/
def keyedTo (id : Seg) (ws : List (Site × Fields)) : List (Site × Fields) :=
  ws.filter fun x => x.1.keyed = some id

section
variable {debug : Bool} {s s' : App} {t : Task} {r : Reply} {a : Action}

/-! ## Ids -/

theorem Identified.launch (accounts : List Uid) {store : Store} (h : OwnIds store) :
    Identified (App.launch accounts store) :=
  ⟨App.formed_launch _ _, Or.inl rfl, fun _ hw => (by cases hw), h⟩

/-- A registration takes its id and its `userId` from the two copies of the uid. -/
theorem Identified.issued {w : Write} (h : Identified s) (hw : t.Issues s w) : w.OwnFields := by
  intro id hid
  cases t <;> simp only [Task.Issues] at hw
  case addPhoneNumber =>
    subst hw
    obtain rfl := Site.registration.inj hid
    refine ⟨_, rfl, ?_⟩
    rcases h.account with hg | hg
    · exact Or.inl (Val.ofString_eq_null.2 hg)
    · rw [hg]
      cases s.prefs.currentUserId with
      | none => exact Or.inl rfl
      | some u => exact Or.inr ⟨u, rfl, rfl⟩
  case locationStore => subst hw; cases hid
  case tap => obtain ⟨key, -, rfl⟩ := hw; cases hid
  case tapProfile => obtain ⟨u, -, d, -, rfl⟩ := hw; cases hid
  case picQuery => obtain ⟨p, -, rfl⟩ := hw; cases hid

theorem Identified.step_account (h : Identified s) (hs : step debug s a = some s') :
    s'.global.userId = none ∨ s'.global.userId = s'.prefs.currentUserId := by
  cases App.step_stepped hs with
  | tap _ ht => rw [ht.global, ht.prefs]; exact h.account
  | relaunch => exact Or.inl rfl
  | dispose | located | geocode | commit | reject => exact h.account
  | resume _ hr =>
    cases resume_account hr with
    | keep hk | form _ _ _ hk =>
      simp only [App.account, Prod.mk.injEq] at hk
      obtain ⟨-, -, hu, hp⟩ := hk
      rw [hu, hp]
      exact h.account
    | signIn uid _ hk =>
      simp only [App.account, Prod.mk.injEq] at hk
      obtain ⟨-, -, hu, hp⟩ := hk
      rw [hu, hp]
      exact Or.inr rfl

/-- A profile after a write to it. -/
theorem OwnIds.merged {st : Store} {w : Write} {id : Seg} (h : OwnIds st) (hf : w.Formed)
    (hw : w.OwnFields) (hu : w.site.user = some id) :
    OwnId id (field (merge ((st.lookup (usersInfo id)).getD emptyDoc) w.fields) "userId") := by
  have old : OwnId id (field ((st.lookup (usersInfo id)).getD emptyDoc) "userId") := by
    cases hd : st.lookup (usersInfo id) with
    | none => exact Or.inl rfl
    | some d => exact h id d hd
  have keep (hk : "userId" ∉ keys w.fields) :
      OwnId id (field (merge ((st.lookup (usersInfo id)).getD emptyDoc) w.fields) "userId") := by
    rwa [field_merge_of_notMem hk]
  have hf := hf.fields
  unfold Write.FieldsOfSite at hf
  cases hs : w.site <;> rw [hs] at hu hf <;>
    simp only [Site.user, Option.some.injEq, reduceCtorEq] at hu <;> subst hu
  case registration id =>
    obtain ⟨g, hg, hid⟩ := hw id hs
    rw [hg]
    simpa [registrationFields, merge, field, Function.update] using hid
  case location =>
    obtain ⟨g, hg⟩ := hf
    exact keep (by simp [hg, keys, locationFields])
  case picture =>
    obtain ⟨u, hg⟩ := hf
    exact keep (by simp [hg, keys, pictureFields])

theorem OwnIds.write {st : Store} {w : Write} (h : OwnIds st) (hf : w.Formed) (hw : w.OwnFields)
    (ha : w.site.accepted st) : OwnIds (w.site.write st w.fields) := by
  intro id d hd
  rw [Option.mem_def, Site.lookup_write _ _ _ _ ha] at hd
  split_ifs at hd with hu
  · obtain rfl := Option.some.inj hd
    exact h.merged hf hw hu
  · exact h id d hd

theorem Identified.step (h : Identified s) (hs : Mazdoor.step debug s a = some s') :
    Identified s' := by
  refine ⟨h.formed.step hs, h.step_account hs, fun w hw => ?_, ?_⟩
  · rcases App.step_pending hs hw with ⟨i, -, t, -, hw⟩ | hw | ⟨w₀, hw₀, rfl⟩
    · exact h.issued hw
    · exact h.pending w hw
    · exact h.pending w₀ hw₀
  · rcases App.step_cases hs with ⟨hst, -⟩ | ⟨j, -, w, hw, ha, rfl⟩
    · exact hst ▸ h.store
    · have hw := List.mem_of_getElem? hw
      exact h.store.write (h.formed w hw) (h.pending w hw) ha

/-! ## Generated ids -/

/-- A device writes once under a generated id, when it is generated. -/
theorem autoWrites_step {k : ℕ}
    (h : (keyedTo (.auto k) s.issued).length ≤ if k < s.nextAuto then 1 else 0)
    (hs : step debug s a = some s') :
    (keyedTo (.auto k) s'.issued).length ≤ if k < s'.nextAuto then 1 else 0 := by
  have hmono := App.step_nextAuto hs
  have grow {b : ℕ} (hb : b ≤ if k < s.nextAuto then 1 else 0) :
      b ≤ if k < s'.nextAuto then 1 else 0 := by split_ifs at hb ⊢ <;> omega
  rcases issued_step hs with hi | ⟨i, t, w, rfl, ht, hw, hi⟩ <;> rw [hi]
  · exact grow h
  rw [keyedTo, List.filter_append, List.length_append, ← keyedTo, List.filter_singleton]
  by_cases hk : w.site.keyed = some (.auto k)
  · have hr : App.resume debug (s.dequeue i) t .done = some s' := by simpa [step, ht] using hs
    rcases keyed_of_issues (s := s.dequeue i) hw hk hr (by simp) with ⟨u, hu, -⟩ | ⟨hu, hlt⟩
    · cases hu
    · obtain rfl : k = s.nextAuto := Seg.auto.inj hu
      rw [if_neg (lt_irrefl _)] at h
      have hlt : s.nextAuto < s'.nextAuto := hlt
      rw [if_pos hlt, Nat.le_zero.1 h, Nat.zero_add]
      exact (List.filter_sublist (p := fun _ => decide _) (l := [w.content])).length_le
  · rw [decide_eq_false (by exact hk)]
    exact grow h

end

section
variable {debug : Bool} {ι : Type} [DecidableEq ι] {accounts : List Uid} {store : Store}
  {n : Fleet ι} {as : List (ι × Action)}

/-- **Identity.**  If every profile of the start carries its own id or none, so
    does every profile in every run of a fleet: no device registers one account
    under the id of another. -/
theorem identified_of_run (hst : OwnIds store)
    (hr : run (Fleet.step debug) (Fleet.launch accounts store) as = some n) :
    OwnIds n.shared.store :=
  Shared.run_shared (M := device debug) (n := Fleet.launch accounts store)
    (J := fun _ => Identified)
    (G := fun b b' => OwnIds b.store → OwnIds b'.store) (H := fun b _ => OwnIds b.store)
    (fun _ _ _ _ h hs => ⟨h.step hs, fun _ => (h.step hs).store⟩)
    (fun _ _ _ h hG => ⟨h.formed, h.account, h.pending, hG h.store⟩)
    (fun _ _ _ _ _ h _ _ hs => (h.step hs).store) (fun _ => .launch accounts hst)
    (fun _ => rfl) hst hr

theorem identified_twoDevices :
    ∃ n : Fleet ℕ, run (Fleet.step true) (Fleet.launch [] ∅) twoDevices = some n ∧
      OwnIds n.shared.store :=
  ⟨_, rfl, @identified_of_run true ℕ _ [] ∅ _ twoDevices (fun _ _ h => (by cases h)) rfl⟩

theorem autoWrites_le (hr : run (Fleet.step debug) (Fleet.launch accounts store) as = some n)
    (i : ι) (k : ℕ) : (keyedTo (.auto k) (n.app i).issued).length ≤ 1 := by
  have h : (keyedTo (.auto k) (n.app i).issued).length ≤ if k < n.shared.nextAuto then 1 else 0 :=
    Shared.run_invariant (M := device debug) (n := Fleet.launch accounts store)
      (J := fun _ s => (keyedTo (.auto k) s.issued).length ≤ if k < s.nextAuto then 1 else 0)
      (G := fun b b' => b.nextAuto ≤ b'.nextAuto)
      (fun _ _ _ _ h hs => ⟨autoWrites_step h hs, App.step_nextAuto hs⟩)
      (fun i s b h hG => by
        have hG : s.nextAuto ≤ b.nextAuto := hG
        show (keyedTo (.auto k) s.issued).length ≤ if k < b.nextAuto then 1 else 0
        split_ifs at h ⊢ <;> omega)
      (fun _ => Nat.zero_le _) hr i
  split_ifs at h <;> omega

/-- One write is issued to a profile with a generated id, by one device. -/
theorem autoWriter {k : ℕ} (hu : NoUid (.auto k) store)
    (hr : run (Fleet.step debug) (Fleet.launch accounts store) as = some n) {i : ι}
    {x : Site × Fields} (hx : x ∈ writesTo (.auto k) (n.app i).issued) :
    writesTo (.auto k) (n.app i).issued = [x] ∧
      ∀ j ≠ i, writesTo (.auto k) (n.app j).issued = [] := by
  have keyed {j : ι} {y : Site × Fields} (hy : y ∈ (n.app j).issued)
      (hyu : y.1.user = some (.auto k)) : y.1.keyed = some (.auto k) :=
    (keys_of_issued hu hr hy hyu).2.2
  have hle : (writesTo (.auto k) (n.app i).issued).length ≤ 1 := by
    refine le_trans ?_ (autoWrites_le hr i k)
    rw [keyedTo, writesTo, ← List.countP_eq_length_filter, ← List.countP_eq_length_filter]
    exact List.countP_mono_left fun y hy hyu => by simpa using keyed hy (by simpa using hyu)
  constructor
  · obtain ⟨y, hy⟩ := List.length_eq_one_iff.1 (le_antisymm hle (List.length_pos_of_mem hx))
    rw [hy, List.mem_singleton] at hx
    rw [hy, hx]
  · intro j hj
    refine List.eq_nil_iff_forall_not_mem.2 fun y hy => hj ?_
    obtain ⟨hx, hxu⟩ := List.mem_filter.1 hx
    obtain ⟨hy, hyu⟩ := List.mem_filter.1 hy
    exact (owner_of_run hr).2 j i _ (Or.inr ⟨y, hy, keyed hy (by simpa using hyu)⟩)
      (Or.inr ⟨x, hx, keyed hx (by simpa using hxu)⟩)

/-- **Stray documents.**  A profile with a generated id, which a device writes when
    it has no stored uid, is one registration or one location of one device.  It is
    the only write to that profile that is ever issued: it is never completed. -/
theorem stray_of_run {k : ℕ} (hn : store.lookup (usersInfo (.auto k)) = none)
    (hr : run (Fleet.step debug) (Fleet.launch accounts store) as = some n) {d : Doc}
    (hd : n.shared.store.lookup (usersInfo (.auto k)) = some d) :
    ∃ i x, writesTo (.auto k) (n.app i).issued = [x] ∧
      (∀ j ≠ i, writesTo (.auto k) (n.app j).issued = []) ∧
      (x.1 = .registration (.auto k) ∨ x.1 = .location (.auto k)) ∧ d = merge emptyDoc x.2 := by
  have hu : NoUid (.auto k) store := noUid_of_none hn
  have hd := profile_of_run hr ▸ hd
  rw [hn] at hd
  -- the device that wrote the document
  cases hw : writesTo (.auto k) n.committed with
  | nil => simp [hw] at hd
  | cons x xs =>
    have hx : x ∈ writesTo (.auto k) n.committed := by simp [hw]
    obtain ⟨hx, hxu⟩ := List.mem_filter.1 hx
    obtain ⟨i, e, he, hc⟩ := mem_committed.1 hx
    have hxi := issued_of_mem_history hr he hc
    obtain ⟨hone, hother⟩ := autoWriter hu hr (List.mem_filter.2 ⟨hxi, hxu⟩)
    have hxu : x.1.user = some (.auto k) := by simpa using hxu
    -- it issued one write to it, so one was applied
    have hle : (writesTo (.auto k) (n.app i).committed).length ≤ 1 := by
      obtain ⟨rejected, hperm⟩ := books_of_run hr i
      rw [← List.length_singleton (a := x), ← hone, writesTo, writesTo, (hperm.filter _).length_eq,
        List.append_assoc, List.filter_append, List.length_append]
      exact Nat.le_add_right _ _
    rw [← writesTo_committed hu hr ⟨x, hxi, (keys_of_issued hu hr hxi hxu).2.2⟩, hw] at hle
    obtain rfl : xs = [] := by simpa using hle
    refine ⟨i, x, hone, hother, ?_, ?_⟩
    · have hp : x.1 ≠ .picture (.auto k) := (unpictured_of_run hu hr i).issued x hxi
      cases hs : x.1 <;> rw [hs] at hxu hp <;>
        simp only [Site.user, Option.some.injEq, reduceCtorEq] at hxu <;> subst hxu
      · exact Or.inl rfl
      · exact Or.inr rfl
      · exact absurd rfl hp
    · rw [hw] at hd
      simpa [mergeInto] using hd.symm

theorem stray_twoDevices :
    ∃ n : Fleet ℕ, run (Fleet.step true) (Fleet.launch [] ∅) twoDevices = some n ∧
      ∃ d, n.shared.store.lookup (usersInfo (.auto 0)) = some d ∧
        ∃ i x, writesTo (.auto 0) (n.app i).issued = [x] ∧
          (∀ j ≠ i, writesTo (.auto 0) (n.app j).issued = []) ∧
          (x.1 = .registration (.auto 0) ∨ x.1 = .location (.auto 0)) ∧ d = merge emptyDoc x.2 :=
  ⟨_, rfl, _, rfl, @stray_of_run true ℕ _ [] ∅ _ twoDevices 0 rfl rfl _ rfl⟩

end
end Mazdoor
