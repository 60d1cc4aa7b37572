/-
  The places in the profiles of a fleet.

  * `Globals.Coherent`: the location globals are unset, or hold one position event
    of the device, with no address or with the address geocoded for it;
  * `Coherent`: so they do, and so does every location that the device issues;
  * `place_of_owner`: the location in a profile is one position event of the one
    device that writes it, never a mixture of two events or of two devices.
-/
import Mazdoor.History

namespace Mazdoor

open Transition DocStore

/-- The location globals are unset, or what one position event put there. -/
def Globals.Coherent (log : List Event) (g : Globals) : Prop :=
  g.location = (none, none, none) ∨
    ∃ p address, .position p ∈ log ∧
      g.location = (some address, some p.latitude, some p.longitude) ∧
      (address = toStringOrNull none ∨
        ∃ first rest, .placemarks p (first :: rest) ∈ log ∧ address = presentAddress first)

theorem Globals.Coherent.mono {log log' : List Event} {g : Globals} (h : g.Coherent log)
    (hl : log ⊆ log') : g.Coherent log' := by
  rcases h with h | ⟨p, address, hp, hg, ha⟩
  · exact Or.inl h
  · refine Or.inr ⟨p, address, hl hp, hg, ha.imp id ?_⟩
    rintro ⟨first, rest, hps, ha⟩
    exact ⟨first, rest, hl hps, ha⟩

/-- The globals, and every location that the device has issued, are coherent. -/
structure Coherent (s : App) : Prop where
  formed : s.Formed
  global : s.global.Coherent s.log
  tasks : ∀ k p, .geocode k p ∈ s.tasks → .position p ∈ s.log
  issued : ∀ x ∈ s.issued, ∀ id, x.1 = .location id →
    ∃ g : Globals, g.Coherent s.log ∧ x.2 = locationFields g

section
variable {debug : Bool} {s s' : App} {a : Action}

theorem Coherent.launch (accounts : List Uid) (store : Store) :
    Coherent (App.launch accounts store) :=
  ⟨App.formed_launch _ _, Or.inl rfl, by simp, fun _ hx => by cases hx⟩

/-- The reply of the geocoder brings the position and its address together. -/
theorem coherent_geocoded {k : ℕ} {p : Position} {r : Reply} (h : s.global.Coherent s.log)
    (hp : .position p ∈ s.log) (hr : App.resume debug s (.geocode k p) r = some s') :
    s'.global.Coherent s'.log := by
  cases r <;> simp only [App.resume, Option.some.injEq, reduceCtorEq] at hr <;> subst hr
  case failed => exact h
  case placemarks ps =>
    have hlog : s.log ⊆ ((s.emit (.placemarks p ps)).setState debug k
        (CustomMap.onPlacemarks p ps)).log :=
      List.Subset.trans (List.subset_append_left _ _) (List.subset_append_left _ _)
    rw [App.setState_global]
    split_ifs
    · cases ps with
      | nil => exact h.mono hlog
      | cons first rest =>
        exact Or.inr ⟨p, presentAddress first, hlog hp, rfl, Or.inr ⟨first, rest, by simp, rfl⟩⟩
    · exact h.mono hlog

theorem Coherent.step_global (h : Coherent s) (hs : step debug s a = some s') :
    s'.global.Coherent s'.log := by
  have hlog := App.step_log hs
  have same (hg : s'.global.location = s.global.location) : s'.global.Coherent s'.log := by
    have h := h.global.mono hlog
    rwa [Globals.Coherent, ← hg] at h
  cases App.step_stepped hs with
  | tap _ ht => exact same (congrArg _ ht.global)
  | relaunch => exact Or.inl rfl
  | located p => exact Or.inr ⟨p, _, by simp, rfl, Or.inl rfl⟩
  | dispose | geocode | commit | reject => exact same rfl
  | @resume i r t _ ht hr =>
    by_cases hg : ∃ k p, t = .geocode k p
    · obtain ⟨k, p, rfl⟩ := hg
      exact coherent_geocoded (s := s.dequeue i) h.global (h.tasks k p (List.mem_of_getElem? ht)) hr
    · exact same ((App.resume_resumed hr).location fun k p hk => hg ⟨k, p, hk⟩)

theorem Coherent.step (h : Coherent s) (hs : Mazdoor.step debug s a = some s') : Coherent s' := by
  have hlog := App.step_log hs
  refine ⟨h.formed.step hs, h.step_global hs,
    fun k p ht => position_of_geocode h.tasks h.formed hs ht, fun x hx id hid => ?_⟩
  obtain ⟨who, he⟩ := mem_issued.1 hx
  rcases App.step_issued hs he with he | ⟨i, r, -, t, -, w, hw, hsite, hfs, -⟩
  · obtain ⟨g, hg, hf⟩ := h.issued x (mem_issued.2 ⟨who, he⟩) id hid
    exact ⟨g, hg.mono hlog, hf⟩
  · rw [hid] at hsite
    cases t <;> simp only [Task.Issues] at hw
    case locationStore =>
      subst hw
      exact ⟨s.global, h.global.mono hlog, hfs.symm⟩
    case addPhoneNumber => subst hw; cases hsite
    case tap => obtain ⟨key, -, rfl⟩ := hw; cases hsite
    case tapProfile => obtain ⟨v, -, d, -, rfl⟩ := hw; cases hsite
    case picQuery => obtain ⟨p, -, rfl⟩ := hw; cases hsite

end

section
variable {debug : Bool} {ι : Type} [DecidableEq ι] {accounts : List Uid} {store : Store}
  {n : Fleet ι} {as : List (ι × Action)} {id : Seg}

theorem coherent_of_run (hr : run (Fleet.step debug) (Fleet.launch accounts store) as = some n)
    (i : ι) : Coherent (n.app i) :=
  Shared.run_invariant_local (M := device debug) (n := Fleet.launch accounts store)
    (J := fun _ => Coherent) (fun _ _ _ _ h hs => h.step hs)
    (fun _ _ _ h => ⟨h.formed, h.global, h.tasks, h.issued⟩) (fun _ => .launch accounts store) hr i

/-- An applied write to a profile that is no registration is a coherent location. -/
theorem location_of_writesTo (hu : NoUid id store)
    (hr : run (Fleet.step debug) (Fleet.launch accounts store) as = some n) {i : ι}
    {x : Site × Fields} (hx : x ∈ writesTo id (n.app i).committed)
    (hreg : x.1.isRegistration = false) :
    ∃ g : Globals, g.Coherent (n.app i).log ∧ x.2 = locationFields g := by
  obtain ⟨hx, hid⟩ := List.mem_filter.1 hx
  have hissued := issued_of_committed hr hx
  have hp := (unpictured_of_run hu hr i).issued x hissued
  refine (coherent_of_run hr i).issued x hissued id ?_
  have hid : x.1.user = some id := by simpa using hid
  cases hs : x.1 <;> rw [hs] at hid hreg hp <;>
    simp only [Site.user, Option.some.injEq, reduceCtorEq] at hid <;> subst hid
  case registration => cases hreg
  case location => rfl
  case picture => exact absurd rfl hp

/-- **Places.**  The location that a new profile is read to have is nothing, or
    one position event of the device that writes the profile, with no address
    or the one that was geocoded for it. -/
theorem place_of_owner (hn : store.lookup (usersInfo id) = none)
    (hr : run (Fleet.step debug) (Fleet.launch accounts store) as = some n) {i : ι}
    (hi : (n.app i).Wrote id) {d : Doc} (hd : n.shared.store.lookup (usersInfo id) = some d) :
    ∃ g : Globals, g.Coherent (n.app i).log ∧ ∀ f ∈ locationFields g, field d f.1 = f.2 := by
  have hu : NoUid id store := noUid_of_none hn
  rw [profile_overlay hu hr, writesTo_committed hu hr hi, hn, overlay] at hd
  cases hl : lastOf (!·.1.isRegistration) (writesTo id (n.app i).committed) with
  | none =>
    -- only registrations were applied, and they have no location fields
    rw [hl, Option.toList_none, List.map_nil, List.append_nil] at hd
    cases hreg : lastOf (·.1.isRegistration) (writesTo id (n.app i).committed) with
    | none => simp [hreg] at hd
    | some y =>
      obtain ⟨hy, hyr⟩ := mem_of_lastOf hreg
      have hkeys : keys y.2 = registrationKeys := by
        obtain ⟨hy, hid⟩ := List.mem_filter.1 hy
        exact (keys_of_issued hu hr (issued_of_committed hr hy) (by simpa using hid)).1 hyr
      have hnull (k : String) (hk : k ∈ locationKeys) : field d k = .null := by
        obtain rfl : merge emptyDoc y.2 = d := by simpa [hreg, mergeInto] using hd
        have hk : k ∉ keys y.2 := fun h =>
          registrationKeys_disjoint (hkeys ▸ h : k ∈ registrationKeys) hk
        rw [field_merge_of_notMem hk]
        rfl
      refine ⟨{}, Or.inl rfl, fun f hf => ?_⟩
      have hf : f.1 ∈ locationKeys ∧ f.2 = .null := by
        simp only [locationFields, List.mem_cons, List.not_mem_nil, or_false] at hf
        rcases hf with rfl | rfl | rfl <;> exact ⟨by simp [locationKeys], rfl⟩
      rw [hnull f.1 hf.1, hf.2]
  | some x =>
    obtain ⟨hx, hxr⟩ := mem_of_lastOf hl
    obtain ⟨g, hg, hfs⟩ := location_of_writesTo hu hr hx (by simpa using hxr)
    rw [hl, mergeAll_append] at hd
    obtain rfl := Option.some.inj hd
    refine ⟨g, hg, fun f hf => ?_⟩
    rw [field, hfs, hasLocation_merge _ g f hf]
    rfl

theorem place_twoDevices :
    ∃ n : Fleet ℕ, run (Fleet.step true) (Fleet.launch [] ∅) twoDevices = some n ∧
      ∃ d, n.shared.store.lookup (usersInfo (.name "A")) = some d ∧
        ∃ g : Globals, g.Coherent (n.app 0).log ∧ ∀ f ∈ locationFields g, field d f.1 = f.2 :=
  ⟨_, rfl, _, rfl, @place_of_owner true ℕ _ [] ∅ _ twoDevices (.name "A") rfl rfl 0
    (by decide) _ rfl⟩

end
end Mazdoor
