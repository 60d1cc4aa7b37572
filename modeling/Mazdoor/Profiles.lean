/-
  The profiles of a fleet as a directory.

  What the users' collection is for: every account has an entry, which its own
  device fills in two parts, the registration and the location.

  * `puts`: the applied writes to the profiles that the run creates, as writes to a
    directory;
  * `Refines`: the directory after these writes, its owners and its documents;
  * `directory_of_run`: every run of a fleet is a run of the directory.
-/
import Mazdoor.Lib.Directory
import Mazdoor.History

namespace Mazdoor

open Transition DocStore Directory

/-- The parts of a user's entry. -/
inductive Facet where
  | registration
  | location
  deriving DecidableEq

/-- The entry and the part that a write to a profile is for. -/
def Site.facet : Site → Option (Seg × Facet)
  | .registration id => some (id, .registration)
  | .location id => some (id, .location)
  | _ => none

/-- An applied write to a new profile, as a write to the directory. -/
def putOf {ι : Type} (store : Store) (i : ι) (x : Site × Fields) :
    Option (Put ι Seg Facet Fields) :=
  x.1.facet.bind fun y =>
    if (store.lookup (usersInfo y.1)).isNone then some ⟨i, y.1, y.2, x.2⟩ else none

/-- The writes of a history to the directory. -/
def puts {ι : Type} (store : Store) (h : List (ι × Event)) : List (Put ι Seg Facet Fields) :=
  h.filterMap fun x => x.2.commits.bind (putOf store x.1)

/-- The document of a user's entry. -/
def userDoc {ι : Type} (e : Entry ι Facet Fields) : Doc := e.doc .registration .location

/-- The directory that a fleet's profiles stand for. -/
structure Refines {ι : Type} (store : Store) (n : Fleet ι)
    (d : Seg → Option (Entry ι Facet Fields)) : Prop where
  owner : ∀ id, ∀ e ∈ d id, (n.app e.owner).Wrote id
  apart : ∀ id, ∀ e ∈ d id, e.Apart .registration .location registrationKeys locationKeys
  docs : ∀ id, store.lookup (usersInfo id) = none →
    n.shared.store.lookup (usersInfo id) = (d id).map userDoc

section
variable {debug : Bool} {ι : Type} [DecidableEq ι] {accounts : List Uid} {store : Store}
  {n n' : Fleet ι} {x : ι × Action} {as : List (ι × Action)} {id : Seg}

theorem wrote_mono (hs : Fleet.step debug n x = some n') {j : ι} (h : (n.app j).Wrote id) :
    (n'.app j).Wrote id := by
  obtain ⟨s', hn, -, hv, ho, -⟩ := Shared.step_cases hs
  by_cases hj : j = x.1
  · obtain ⟨y, hy, hk⟩ := h
    subst hj
    have hv : n'.app x.1 = s' := hv
    refine ⟨y, ?_, hk⟩
    rw [hv]
    rcases issued_step hn with hi | ⟨i, t, w, -, -, -, hi⟩ <;> rw [hi]
    · exact hy
    · exact List.mem_append_left _ hy
  · have hv : n'.app j = (n.app j).on n'.shared := ho j hj
    rw [hv]
    exact h

omit [DecidableEq ι] in
theorem puts_append (store : Store) (h : List (ι × Event)) (i : ι) (es : List Event) :
    puts store (h ++ es.map (i, ·)) =
      puts store h ++ (es.filterMap Event.commits).filterMap (putOf store i) := by
  rw [puts, List.filterMap_append, List.filterMap_map, List.filterMap_filterMap]
  rfl

omit [DecidableEq ι] in
/-- What the owner of an entry makes of it. -/
theorem Refines.entry {d : Seg → Option (Entry ι Facet Fields)} (h : Refines store n d)
    (i : ι) (f : Facet) (fs : Fields) (hid : store.lookup (usersInfo id) = none)
    (hkeys : (f = .registration → keys fs = registrationKeys) ∧
      (f = .location → keys fs = locationKeys)) :
    let e := (entryFor d ⟨i, id, f, fs⟩).put f fs
    e.Apart .registration .location registrationKeys locationKeys ∧
      userDoc e = merge ((n.shared.store.lookup (usersInfo id)).getD emptyDoc) fs := by
  have hold : (entryFor d ⟨i, id, f, fs⟩).Apart .registration .location registrationKeys
      locationKeys ∧ userDoc (entryFor d ⟨i, id, f, fs⟩) =
        (n.shared.store.lookup (usersInfo id)).getD emptyDoc := by
    rw [h.docs id hid, entryFor]
    cases he : d id with
    | none => exact ⟨apart_free i, rfl⟩
    | some e => exact ⟨h.apart id e he, rfl⟩
  rw [← hold.2]
  cases f with
  | registration => exact hold.1.put_left (by decide) (hkeys.1 rfl) registrationKeys_disjoint
  | location => exact hold.1.put_right (by decide) (hkeys.2 rfl)

omit [DecidableEq ι] in
theorem putOf_eq_some {i : ι} {y : Site × Fields} {p : Put ι Seg Facet Fields}
    (h : putOf store i y = some p) :
    ∃ id f, y.1.facet = some (id, f) ∧ store.lookup (usersInfo id) = none ∧
      p = ⟨i, id, f, y.2⟩ := by
  obtain ⟨⟨id, f⟩, hf, h⟩ := Option.bind_eq_some_iff.1 h
  split_ifs at h with hn
  exact ⟨id, f, hf, Option.isNone_iff_eq_none.1 hn, (Option.some.inj h).symm⟩

theorem Site.user_of_facet {site : Site} {f : Facet} (h : site.facet = some (id, f)) :
    site.user = some id ∧ (f = .registration ↔ site.isRegistration) := by
  cases site <;> simp only [Site.facet, Option.some.injEq, Prod.mk.injEq, reduceCtorEq] at h <;>
    obtain ⟨rfl, rfl⟩ := h <;> simp [Site.user, Site.isRegistration]

/-- **One step** of the fleet is one write to the directory, or none. -/
theorem Refines.step {d : Seg → Option (Entry ι Facet Fields)}
    (hr : run (Fleet.step debug) (Fleet.launch accounts store) as = some n)
    (hd : run Directory.step (fun _ => none) (puts store n.history) = some d)
    (h : Refines store n d) (hs : Fleet.step debug n x = some n') :
    ∃ d', run Directory.step (fun _ => none) (puts store n'.history) = some d' ∧
      Refines store n' d' := by
  obtain ⟨s', hn, hb, -, -, hh⟩ := Shared.step_cases hs
  have hstore : n'.shared.store = s'.store := congrArg Backend.store hb
  rw [hh, puts_append]
  -- a step that leaves the new profiles alone
  have still (hl : ∀ id, store.lookup (usersInfo id) = none →
      n'.shared.store.lookup (usersInfo id) = n.shared.store.lookup (usersInfo id)) :
      Refines store n' d :=
    ⟨fun id e he => wrote_mono hs (h.owner id e he), h.apart, fun id hid =>
      (hl id hid).trans (h.docs id hid)⟩
  rcases step_news hn with ⟨hst, hnews⟩ | ⟨w, hw, ha, hst, hnews⟩ <;> rw [hnews]
  · refine ⟨d, by simpa using hd, still fun id _ => ?_⟩
    rw [hstore, hst]
    rfl
  have hlookup (id : Seg) : n'.shared.store.lookup (usersInfo id) =
      if w.site.user = some id then
        some (merge ((n.shared.store.lookup (usersInfo id)).getD emptyDoc) w.fields)
      else n.shared.store.lookup (usersInfo id) := by
    rw [hstore, hst]
    exact Site.lookup_write _ _ _ _ ha
  have hbooks := books_of_run hr x.1
  have hissued : w.content ∈ (n.app x.1).issued := hbooks.mem_issued_of_pending hw
  cases hput : putOf store x.1 w.content with
  | none =>
    refine ⟨d, by simpa [hput] using hd, still fun id hid => ?_⟩
    rw [hlookup, if_neg]
    intro hu
    have hp : w.site ≠ .picture id :=
      (unpictured_of_run (noUid_of_none hid) hr x.1).issued _ hissued
    -- a new profile gets registrations and locations only
    have hfacet : ∃ f, w.site.facet = some (id, f) := by
      cases hs : w.site <;> rw [hs] at hu hp <;>
        simp only [Site.user, Option.some.injEq, reduceCtorEq] at hu <;> subst hu
      · exact ⟨_, rfl⟩
      · exact ⟨_, rfl⟩
      · exact absurd rfl hp
    obtain ⟨f, hf⟩ := hfacet
    simp [putOf, Write.content, hf, hid] at hput
  | some p =>
    obtain ⟨id, f, hf, hid, rfl⟩ := putOf_eq_some hput
    obtain ⟨hu, hreg⟩ := Site.user_of_facet hf
    have hu : w.site.user = some id := hu
    obtain ⟨hk₁, hk₂, hkeyed⟩ := keys_of_issued (noUid_of_none hid) hr hissued hu
    have hwrote : (n.app x.1).Wrote id := ⟨_, hissued, hkeyed⟩
    obtain ⟨hapart, hdoc⟩ := h.entry x.1 f w.fields hid
      ⟨fun hfr => hk₁ (hreg.1 hfr), fun hfl => hk₂ (by
        rw [Bool.eq_false_iff, ne_eq, ← hreg, hfl]
        simp)⟩
    -- the entry is free, or the device's own
    have howner : (entryFor d ⟨x.1, id, f, w.fields⟩).owner = x.1 := by
      rw [entryFor]
      cases he : d id with
      | none => rfl
      | some e => exact (owner_of_run hr).2 _ _ id (Or.inr (h.owner id e he)) (Or.inr hwrote)
    set e := (entryFor d ⟨x.1, id, f, w.fields⟩).put f w.fields
    refine ⟨Function.update d id (some e), ?_, fun id' e' he' => ?_, fun id' e' he' => ?_,
      fun id' hid' => ?_⟩
    · have hputs : [w.content].filterMap (putOf store x.1) = [⟨x.1, id, f, w.fields⟩] := by
        rw [List.filterMap_cons, hput]
        rfl
      rw [hputs]
      exact run_append.2 ⟨d, hd, run_cons.2 ⟨_, if_pos howner, rfl⟩⟩
    · by_cases hi : id' = id
      · subst hi
        obtain rfl : e = e' := by simpa using he'
        exact wrote_mono hs (howner ▸ hwrote)
      · rw [Function.update_of_ne hi] at he'
        exact wrote_mono hs (h.owner id' e' he')
    · by_cases hi : id' = id
      · subst hi
        obtain rfl : e = e' := by simpa using he'
        exact hapart
      · rw [Function.update_of_ne hi] at he'
        exact h.apart id' e' he'
    · rw [hlookup]
      by_cases hi : id' = id
      · subst hi
        rw [if_pos hu, Function.update_self, Option.map_some, hdoc]
      · rw [if_neg fun hu' => hi (Option.some.inj (hu'.symm.trans hu)), Function.update_of_ne hi]
        exact h.docs id' hid'

/-- **Refinement.**  In every run of a fleet the writes that the backend has applied
    to the profiles of new users are, in their order, permitted writes of a directory;
    every entry is written by its owner only, and the profiles are the documents of
    the entries. -/
theorem directory_of_run (hr : run (Fleet.step debug) (Fleet.launch accounts store) as = some n) :
    ∃ d : Seg → Option (Entry ι Facet Fields),
      run Directory.step (fun _ => none) (puts store n.history) = some d ∧
      (∀ p ∈ puts store n.history, ∃ e ∈ d p.key, e.owner = p.client) ∧
      ∀ id, store.lookup (usersInfo id) = none →
        n.shared.store.lookup (usersInfo id) = (d id).map userDoc := by
  suffices h : ∃ d, run Directory.step (fun _ => none) (puts store n.history) = some d ∧
      Refines store n d by
    obtain ⟨d, hd, h⟩ := h
    exact ⟨d, hd, owner_of_put hd, h.docs⟩
  induction as using List.reverseRecOn generalizing n with
  | nil =>
    obtain rfl := Option.some.inj hr
    exact ⟨fun _ => none, rfl, fun _ _ he => (by cases he), fun _ _ he => (by cases he),
      fun _ hid => hid⟩
  | append_singleton as x ih =>
    obtain ⟨n₁, hr₁, hx⟩ := run_append.1 hr
    obtain ⟨n₂, hs, hn⟩ := run_cons.1 hx
    obtain rfl := Option.some.inj hn
    obtain ⟨d, hd, h⟩ := ih hr₁
    exact h.step hr₁ hd hs

theorem directory_twoDevices :
    ∃ n : Fleet ℕ, run (Fleet.step true) (Fleet.launch [] ∅) twoDevices = some n ∧
      ∃ d : Seg → Option (Entry ℕ Facet Fields),
        run Directory.step (fun _ => none) (puts ∅ n.history) = some d ∧
        (∀ p ∈ puts ∅ n.history, ∃ e ∈ d p.key, e.owner = p.client) ∧
        ∀ id, (∅ : Store).lookup (usersInfo id) = none →
          n.shared.store.lookup (usersInfo id) = (d id).map userDoc :=
  ⟨_, rfl, @directory_of_run true ℕ _ [] ∅ _ twoDevices rfl⟩

end
end Mazdoor
