/-
  The documents as the history of applied writes tells them.

  * `committed_invariant`: what every applied write keeps of the store and of the
    applied writes holds after every run;
  * `profile_of_run`: a profile is the merges of the writes addressed to it;
  * `profile_overlay`: however registrations and locations were interleaved, what
    is left of them is the last registration and the last location, each whole;
  * `profile_of_owner`: both are found in the log of the one device that writes
    the profile.
-/
import Mazdoor.Lib.Merges
import Mazdoor.Owner
import Mazdoor.Location

namespace Mazdoor

open Transition DocStore

/-- A write leaves the other fields as they read. -/
theorem field_merge_of_notMem {d : Doc} {fs : Fields} {k : String} (h : k ∉ keys fs) :
    field (merge d fs) k = field d k := by
  rw [field, field, merge_of_notMem h]

/-- The writes to the profile `id`. -/
def writesTo (id : Seg) (ws : List (Site × Fields)) : List (Site × Fields) :=
  ws.filter fun x => x.1.user = some id

/-- A registration, as opposed to a location, among the writes to a profile. -/
def Site.isRegistration : Site → Bool
  | .registration _ => true
  | _ => false

def registrationKeys : List String :=
  ["userPhoneNumber", "userId", "userName", "userImage", "userToken"]

theorem registrationKeys_disjoint : registrationKeys.Disjoint locationKeys := by
  simp [registrationKeys, locationKeys]

/-- What the last registration and the last location among `ws` make of the document `d`. -/
def overlay (d : Option Doc) (ws : List (Site × Fields)) : Option Doc :=
  mergeAll d ((lastOf (·.1.isRegistration) ws).toList.map Prod.snd ++
    (lastOf (!·.1.isRegistration) ws).toList.map Prod.snd)

section
variable {debug : Bool} {s s' : App} {a : Action}

theorem news_commit (s : App) (j : ℕ) (w : Write) :
    (Shared.news (device debug) s ((s.answer j).commit w)).filterMap Event.commits =
      [w.content] := by
  have hn : Shared.news (device debug) s ((s.answer j).commit w) =
      .committed w.site w.fields :: s.creation w := Shared.news_eq rfl
  rw [hn, List.filterMap_cons]
  simp only [Event.commits, commits_creation]
  rfl

theorem news_quiet (hs : step debug s a = some s') (ha : ∀ j, a ≠ .commit j) :
    (Shared.news (device debug) s s').filterMap Event.commits = [] := by
  rcases App.step_cases hs with ⟨-, es, hl, hes⟩ | ⟨j, hj, -⟩
  · rw [Shared.news_eq (M := device debug) hl]
    exact filterMap_commits hes
  · exact absurd hj (ha j)

/-- A step applies no write, or one that was pending. -/
theorem step_news (hs : step debug s a = some s') :
    (s'.store = s.store ∧ (Shared.news (device debug) s s').filterMap Event.commits = []) ∨
      ∃ w ∈ s.pending, w.site.accepted s.store ∧ s'.store = w.site.write s.store w.fields ∧
        (Shared.news (device debug) s s').filterMap Event.commits = [w.content] := by
  rcases App.step_cases hs with ⟨hst, es, hl, hes⟩ | ⟨j, -, w, hw, ha, rfl⟩
  · rw [Shared.news_eq (M := device debug) hl]
    exact Or.inl ⟨hst, filterMap_commits hes⟩
  · exact Or.inr ⟨w, List.mem_of_getElem? hw, ha, rfl, news_commit s j w⟩

theorem filterMap_tagged {ι δ : Type} (f : Event → Option δ) (i : ι) (es : List Event) :
    (es.map (i, ·)).filterMap (fun x => f x.2) = es.filterMap f := by
  rw [List.filterMap_map]
  rfl

/-- A profile stays the merges of the applied writes when one more is applied. -/
theorem lookup_merged {st : Store} {ws : List (Site × Fields)} {w : Write} {id : Seg}
    {d : Option Doc}
    (h : st.lookup (usersInfo id) = mergeAll d ((writesTo id ws).map Prod.snd))
    (ha : w.site.accepted st) :
    (w.site.write st w.fields).lookup (usersInfo id) =
      mergeAll d ((writesTo id (ws ++ [w.content])).map Prod.snd) := by
  rw [Site.lookup_write _ _ _ _ ha, writesTo, List.filter_append, List.map_append, mergeAll_append,
    ← writesTo, ← h]
  by_cases hu : w.site.user = some id
  · rw [if_pos hu, List.filter_singleton, decide_eq_true (by exact hu)]
    rfl
  · rw [if_neg hu, List.filter_singleton, decide_eq_false (by exact hu)]
    rfl

end

section
variable {debug : Bool} {ι : Type} [DecidableEq ι] {accounts : List Uid} {store : Store}
  {n : Fleet ι} {as : List (ι × Action)} {id : Seg}

/-- A fact about the store and the applied writes, kept by every applied write. -/
theorem committed_invariant {H : Store → List (Site × Fields) → Prop}
    (keep : ∀ st ws (w : Write), H st ws → w.site.accepted st →
      H (w.site.write st w.fields) (ws ++ [w.content]))
    (h₀ : H store []) (hr : run (Fleet.step debug) (Fleet.launch accounts store) as = some n) :
    H n.shared.store n.committed := by
  refine Shared.run_shared (M := device debug) (J := fun _ _ => True) (G := fun _ _ => True)
    (H := fun b h => H b.store (h.filterMap (·.2.commits)))
    (fun _ _ _ _ _ _ => ⟨trivial, trivial⟩) (fun _ _ _ _ _ => trivial)
    (fun i s a s' h _ _ hH hs => ?_) (fun _ => trivial) (fun _ => rfl) h₀ hr
  show H s'.store _
  rw [List.filterMap_append, filterMap_tagged Event.commits]
  rcases step_news hs with ⟨hst, hn⟩ | ⟨w, -, ha, hst, hn⟩ <;> rw [hst, hn]
  · rw [List.append_nil]
    exact hH
  · exact keep _ _ w hH ha

/-- **Profiles.**  A profile is the merges of the writes addressed to it. -/
theorem profile_of_run (hr : run (Fleet.step debug) (Fleet.launch accounts store) as = some n) :
    n.shared.store.lookup (usersInfo id) =
      mergeAll (store.lookup (usersInfo id)) ((writesTo id n.committed).map Prod.snd) :=
  committed_invariant (H := fun st ws => st.lookup (usersInfo id) =
    mergeAll (store.lookup (usersInfo id)) ((writesTo id ws).map Prod.snd))
    (fun _ _ _ h ha => lookup_merged h ha) rfl hr

/-! ## One device -/

theorem eventsOf_history (hr : run (Fleet.step debug) (Fleet.launch accounts store) as = some n)
    (i : ι) : Shared.eventsOf i n.history = (n.app i).log :=
  Shared.history_eq_log (M := device debug) rfl hr

/-- An applied write was applied for a device, which had issued it. -/
theorem issued_of_mem_history
    (hr : run (Fleet.step debug) (Fleet.launch accounts store) as = some n) {j : ι} {e : Event}
    {x : Site × Fields} (he : (j, e) ∈ n.history) (hx : e.commits = some x) :
    x ∈ (n.app j).issued := by
  have hlog : e ∈ (n.app j).log := by
    rw [← eventsOf_history hr j]
    exact Shared.mem_eventsOf.2 he
  exact issued_of_committed hr (List.mem_filterMap.2 ⟨e, hlog, hx⟩)

/-- The writes that a device issues are those of the sites. -/
theorem formed_of_issued (hr : run (Fleet.step debug) (Fleet.launch accounts store) as = some n)
    (i : ι) : ∀ x ∈ (n.app i).issued, ∃ w : Write, w.content = x ∧ w.Formed := by
  refine Shared.run_invariant_local (M := device debug)
    (J := fun _ s => ∀ x ∈ s.issued, ∃ w : Write, w.content = x ∧ w.Formed)
    (fun i s a s' h hs x hx => ?_) (fun _ _ _ h => h) (fun _ x hx => by cases hx) hr i
  obtain ⟨who, he⟩ := mem_issued.1 hx
  rcases App.step_issued hs he with he | ⟨i, r, -, t, -, w, hw, hs, hf, -⟩
  · exact h x (mem_issued.2 ⟨who, he⟩)
  · exact ⟨w, Prod.ext hs hf, hw.formed⟩

theorem unpictured_of_run (hn : NoUid id store)
    (hr : run (Fleet.step debug) (Fleet.launch accounts store) as = some n) (i : ι) :
    Unpictured id (n.app i) :=
  Shared.run_invariant (M := device debug) (n := Fleet.launch accounts store)
    (J := fun _ => Unpictured id) (G := fun b b' => NoUid id b.store → NoUid id b'.store)
    (fun _ _ _ _ h hs => ⟨h.step hs, fun _ => (h.step hs).uid⟩)
    (fun _ _ _ h hG => ⟨h.formed, hG h.uid, h.issued⟩) (fun _ => .launch accounts hn) hr i

/-- The write to a profile is a registration or a location. -/
theorem keys_of_issued (hn : NoUid id store)
    (hr : run (Fleet.step debug) (Fleet.launch accounts store) as = some n) {i : ι}
    {x : Site × Fields} (hx : x ∈ (n.app i).issued) (hu : x.1.user = some id) :
    (x.1.isRegistration → keys x.2 = registrationKeys) ∧
      (x.1.isRegistration = false → keys x.2 = locationKeys) ∧ x.1.keyed = some id := by
  have hp : x.1 ≠ .picture id := (unpictured_of_run hn hr i).issued x hx
  obtain ⟨w, rfl, hw⟩ := formed_of_issued hr i x hx
  have hf := hw.fields
  simp only [Write.content] at hp hu ⊢
  unfold Write.FieldsOfSite at hf
  cases hs : w.site <;> rw [hs] at hu hp hf <;>
    simp only [Site.user, Option.some.injEq, reduceCtorEq] at hu <;> subst hu
  case registration =>
    obtain ⟨g, hf⟩ := hf
    rw [hf]
    exact ⟨fun _ => rfl, by simp [Site.isRegistration], rfl⟩
  case location =>
    obtain ⟨g, hf⟩ := hf
    rw [hf]
    exact ⟨by simp [Site.isRegistration], fun _ => rfl, rfl⟩
  case picture => exact absurd rfl hp

omit [DecidableEq ι] in
theorem mem_committed {x : Site × Fields} :
    x ∈ n.committed ↔ ∃ j e, (j, e) ∈ n.history ∧ e.commits = some x := by
  simp [Fleet.committed, List.mem_filterMap]

/-- **Overlay.**  On a profile that has no `uid` field, any interleaving of the
    registrations and locations that the devices of a fleet write amounts to the
    last registration and the last location, each of them whole. -/
theorem profile_overlay (hn : NoUid id store)
    (hr : run (Fleet.step debug) (Fleet.launch accounts store) as = some n) :
    n.shared.store.lookup (usersInfo id) =
      overlay (store.lookup (usersInfo id)) (writesTo id n.committed) := by
  have hkeys : ∀ x ∈ writesTo id n.committed, (x.1.isRegistration → keys x.2 = registrationKeys) ∧
      (x.1.isRegistration = false → keys x.2 = locationKeys) := fun x hx => by
    obtain ⟨hx, hu⟩ := List.mem_filter.1 hx
    obtain ⟨j, e, he, hc⟩ := mem_committed.1 hx
    obtain ⟨h₁, h₂, -⟩ := keys_of_issued hn hr (issued_of_mem_history hr he hc) (by simpa using hu)
    exact ⟨h₁, h₂⟩
  rw [profile_of_run hr]
  exact mergeAll_eq_last registrationKeys_disjoint _ _ _ (fun x hx => (hkeys x hx).1)
    fun x hx => (hkeys x hx).2

/-- The writes to a profile that one device writes are found in its own log. -/
theorem writesTo_committed (hn : NoUid id store)
    (hr : run (Fleet.step debug) (Fleet.launch accounts store) as = some n) {i : ι}
    (hi : (n.app i).Wrote id) :
    writesTo id n.committed = writesTo id (n.app i).committed := by
  have hfilter (ws : List (Site × Fields)) :
      writesTo id ws = ws.filterMap fun x => if x.1.user = some id then some x else none := by
    rw [writesTo, ← List.filterMap_eq_filter]
    refine List.filterMap_congr fun x _ => ?_
    simp [Option.guard]
  rw [hfilter, hfilter, Fleet.committed, App.committed, List.filterMap_filterMap,
    List.filterMap_filterMap, ← eventsOf_history hr i]
  refine Shared.filterMap_eventsOf (i := i) (fun e : Event => e.commits.bind fun x =>
    if x.1.user = some id then some x else none) fun x hx hne => ?_
  obtain ⟨j, e⟩ := x
  cases hc : e.commits with
  | none => simp [hc] at hne
  | some y =>
    have hu : y.1.user = some id := by
      by_contra hu
      simp [hc, hu] at hne
    have hy := issued_of_mem_history hr hx hc
    exact (owner_of_run hr).2 j i id (Or.inr ⟨y, hy, (keys_of_issued hn hr hy hu).2.2⟩) (Or.inr hi)

/-- **Profiles and their devices.**  A profile that a device has written is what
    the last registration and the last location in that device's own log make of
    it, whatever all other devices do. -/
theorem profile_of_owner (hn : NoUid id store)
    (hr : run (Fleet.step debug) (Fleet.launch accounts store) as = some n) {i : ι}
    (hi : (n.app i).Wrote id) :
    n.shared.store.lookup (usersInfo id) =
      overlay (store.lookup (usersInfo id)) (writesTo id (n.app i).committed) := by
  rw [profile_overlay hn hr, writesTo_committed hn hr hi]

theorem profile_twoDevices :
    ∃ n : Fleet ℕ, run (Fleet.step true) (Fleet.launch [] ∅) twoDevices = some n ∧
      (n.app 0).Wrote (.name "A") ∧ n.shared.store.lookup (usersInfo (.name "A")) =
        overlay none (writesTo (.name "A") (n.app 0).committed) :=
  ⟨_, rfl, by decide, @profile_of_owner true ℕ _ [] ∅ _ twoDevices (.name "A") (by decide) rfl 0
    (by decide)⟩

end
end Mazdoor
