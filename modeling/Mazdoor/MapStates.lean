/-
  The positions of the two map screens (`lib/Screens/custom_map.dart` and
  `lib/Screens/showAddress.dart`).

  Both screens test a static field, which all their `State` objects share, and
  then read a field of the object that is built.  The listeners assign both
  fields, but a new object starts with the second one null.

  * `CustomMap.build`, `UserLocation.build` and `UserLocation.addmarker`: what
    the screens show, or the error of a null dereference;
  * `MapStates`: the static fields, the `State` objects of a process and the
    position handlers that await the geocoder;
  * `recreated_dereferences_null`: a tab switch disposes and recreates the map;
  * `nullSafe_iff_firstFix`: no object in any state of a run dereferences null
    if and only if objects are created before the first position of their
    screen, and that position finds no other object without one.
-/
import Mazdoor.Lib.Run
import Mazdoor.Data

namespace Mazdoor

open Transition

/-! ## Screens with a map -/

inductive MapScreen where
  | customMap
  | userLocation
  deriving DecidableEq

/-- A `State` object: `positions` of `CustomMap`, `_position` of `UserLocation`. -/
structure MapState where
  screen : MapScreen
  mounted : Bool
  positions : Option Position
  deriving DecidableEq

/-- The error of a dereference of null. -/
inductive NullError where
  | noSuchMethod
  deriving DecidableEq

/-- What `build` shows: a progress indicator, or a map with its target and the marker. -/
inductive Shown (L : Type) where
  | progress
  | map (target : L) (marker : Option L)
  deriving DecidableEq

section
-- the constructor `LatLng` of the map library, on numbers
variable {L : Type} (latLng : ℚ → ℚ → L)

/-- `LatLng(positions.latitude, positions.longitude)`. -/
def target : Option Position → Except NullError L
  | some p => .ok (latLng p.latitude p.longitude)
  | none => .error .noSuchMethod

/-- `CustomMap.build`: the markers are those of `populateClient`. -/
def CustomMap.build (initialPosition : Option L) (positions : Option Position) :
    Except NullError (Shown L) :=
  match initialPosition with
  | none => .ok .progress
  | some _ => do
    let t ← target latLng positions
    return .map t none

/-- `UserLocation._addmarker`: the position of the one marker. -/
def UserLocation.addmarker (position : Option Position) : Except NullError L :=
  target latLng position

/-- `UserLocation.build`. -/
def UserLocation.build (initialPosition : Option L) (position : Option Position) :
    Except NullError (Shown L) :=
  match initialPosition with
  | none => .ok .progress
  | some _ => do
    let t ← target latLng position
    let marker ← UserLocation.addmarker latLng position
    return .map t (some marker)

def MapState.build (initialPosition : Option L) (st : MapState) : Except NullError (Shown L) :=
  match st.screen with
  | .customMap => CustomMap.build latLng initialPosition st.positions
  | .userLocation => UserLocation.build latLng initialPosition st.positions

end

/-! ## Lifetimes -/

/-- The map screens of one process: the static fields `initialPosition` and
    `_initialPosition`, the `State` objects in the order of their creation, and
    the handlers of `CustomMap` that await the geocoder, with their object. -/
structure MapStates (L : Type) where
  initialPosition : MapScreen → Option L
  states : List MapState
  geocoding : List (ℕ × Position)

inductive MapAction where
  /-- a `State` is created, and `initState` subscribes to positions -/
  | create (screen : MapScreen)
  | build (k : ℕ)
  /-- the `State` is disposed, and its subscription cancelled -/
  | dispose (k : ℕ)
  /-- the geolocator delivers an event to the listener of the `State` -/
  | position (k : ℕ) (p : Position)
  /-- the geocoder answers the handler `i` -/
  | placemarks (i : ℕ) (ps : List Placemark)
  | geocodingFailed (i : ℕ)
  deriving DecidableEq

namespace MapStates

section
variable {L : Type} (latLng : ℚ → ℚ → L)

def isMounted (s : MapStates L) (k : ℕ) : Bool := (s.states[k]?.map (·.mounted)).getD false

/-- The first two assignments of the closure that both listeners pass to `setState`. -/
def locate (s : MapStates L) (k : ℕ) (p : Position) : MapStates L :=
  match s.states[k]? with
  | some st =>
    { s with
      initialPosition := Function.update s.initialPosition st.screen
        (some (latLng p.latitude p.longitude))
      states := s.states.set k { st with positions := some p } }
  | none => s

/-- One step. -/
def step (debug : Bool) (s : MapStates L) : MapAction → Option (MapStates L)
  | .create screen => some { s with states := s.states ++ [⟨screen, true, none⟩] }
  -- `build` assigns nothing
  | .build k => if s.isMounted k then some s else none
  | .dispose k =>
    match s.states[k]? with
    | some st =>
      if st.mounted then some { s with states := s.states.set k { st with mounted := false } }
      else none
    | none => none
  | .position k p =>
    match s.states[k]? with
    | some ⟨.userLocation, true, _⟩ => some (s.locate latLng k p)
    | some ⟨.customMap, true, _⟩ => some { s with geocoding := s.geocoding ++ [(k, p)] }
    | _ => none
  | .placemarks i _ =>
    match s.geocoding[i]? with
    | some (k, p) =>
      let s' := { s with geocoding := s.geocoding.eraseIdx i }
      -- `setState` on a disposed `State` throws, in a debug build before its closure runs;
      -- `placemark[0]` throws on an empty list, after the two assignments
      some (if s.isMounted k || !debug then s'.locate latLng k p else s')
    | none => none
  | .geocodingFailed i =>
    match s.geocoding[i]? with
    | some _ => some { s with geocoding := s.geocoding.eraseIdx i }
    | none => none

/-- A process without `State` objects. -/
def start : MapStates L := ⟨fun _ => none, [], []⟩

/-- No `State` that is mounted dereferences null when it is built. -/
structure NullSafe (s : MapStates L) : Prop where
  guarded : ∀ st ∈ s.states, st.mounted → s.initialPosition st.screen ≠ none → st.positions ≠ none
  builds : ∀ st ∈ s.states, st.mounted →
    ∃ shown, st.build latLng (s.initialPosition st.screen) = .ok shown

end

/-- The other mounted `State` objects of the screen have a position. -/
def OthersLocated {L : Type} (s : MapStates L) (k : ℕ) (screen : MapScreen) : Prop :=
  ∀ st ∈ s.states.eraseIdx k, st.mounted → st.screen = screen → st.positions ≠ none

/-- The condition of a step: a `State` is created before the first position of
    its screen, and a position is assigned when no other `State` of the screen
    is without one. -/
def FirstFix {L : Type} (debug : Bool) (s : MapStates L) : MapAction → Prop
  | .create screen => s.initialPosition screen = none
  | .position k _ => ∀ st ∈ s.states[k]?, st.screen = .userLocation → s.OthersLocated k .userLocation
  | .placemarks i _ => ∀ h ∈ s.geocoding[i]?, (s.isMounted h.1 || !debug) = true →
      ∀ st ∈ s.states[h.1]?, s.OthersLocated h.1 st.screen
  | _ => True

instance {L : Type} (s : MapStates L) (k : ℕ) (screen : MapScreen) :
    Decidable (s.OthersLocated k screen) :=
  inferInstanceAs (Decidable (∀ st ∈ _, _))

instance {L : Type} [DecidableEq L] (debug : Bool) (s : MapStates L) (a : MapAction) :
    Decidable (s.FirstFix debug a) := by
  induction a using MapAction.casesOn <;> dsimp only [FirstFix] <;> infer_instance

end MapStates

/-! ## A new object, an old static field -/

/-- The map tab is shown and gets a position, is left and shown again. -/
def tabSwitch : List MapAction :=
  [.create .customMap, .position 0 ⟨1, 2⟩, .placemarks 0 [⟨none, none, none⟩], .build 0,
    .dispose 0, .create .customMap]

/-- **The claimed safety fails**: the new map dereferences null. -/
theorem recreated_dereferences_null :
    ∃ t, run (MapStates.step Prod.mk true) MapStates.start tabSwitch = some t ∧
      ∃ st ∈ t.states, st.mounted ∧ t.initialPosition st.screen ≠ none ∧ st.positions = none ∧
        st.build Prod.mk (t.initialPosition st.screen) = .error .noSuchMethod :=
  ⟨_, rfl, _, List.mem_cons_of_mem _ List.mem_cons_self, rfl, by decide, rfl, rfl⟩

namespace MapStates

section
variable {L : Type} {latLng : ℚ → ℚ → L} {debug : Bool} {s s' : MapStates L} {st : MapState} {k : ℕ}

/-- Where the static field is set, the field of the object is. -/
def Guarded (s : MapStates L) : Prop :=
  ∀ st ∈ s.states, st.mounted → s.initialPosition st.screen ≠ none → st.positions ≠ none

/-- A `build` fails exactly when the static field is set and the object's is null. -/
theorem build_eq_ok_iff (latLng : ℚ → ℚ → L) (initialPosition : Option L) (st : MapState) :
    (∃ shown, st.build latLng initialPosition = .ok shown) ↔
      (initialPosition ≠ none → st.positions ≠ none) := by
  obtain ⟨screen, mounted, positions⟩ := st
  cases initialPosition with
  | none => cases screen <;> exact iff_of_true ⟨.progress, rfl⟩ (fun h => absurd rfl h)
  | some l =>
    cases positions with
    | none => cases screen <;> exact iff_of_false nofun (fun h => h nofun rfl)
    | some p => cases screen <;> exact iff_of_true ⟨_, rfl⟩ (fun _ => nofun)

theorem nullSafe_iff_guarded (latLng : ℚ → ℚ → L) : s.NullSafe latLng ↔ s.Guarded := by
  constructor
  · exact fun h => h.guarded
  · exact fun h => ⟨h, fun st hst hm => (build_eq_ok_iff latLng _ st).2 (h st hst hm)⟩

/-! ## Steps -/

theorem locate_eq (hst : s.states[k]? = some st) (p : Position) :
    s.locate latLng k p =
      { s with
        initialPosition := Function.update s.initialPosition st.screen
          (some (latLng p.latitude p.longitude))
        states := s.states.set k { st with positions := some p } } := by
  simp only [locate, hst]

/-- An assignment is safe exactly when no other object is left without a position. -/
theorem guarded_locate (h : s.Guarded) (hst : s.states[k]? = some st) (p : Position) :
    (s.locate latLng k p).Guarded ↔ s.OthersLocated k st.screen := by
  have hk := (List.getElem?_eq_some_iff.1 hst).1
  rw [locate_eq hst]
  constructor
  · intro h' st' hmem hm hsc
    obtain ⟨j, hj, hst'⟩ := List.mem_eraseIdx_iff_getElem?.1 hmem
    refine h' st' (List.mem_iff_getElem?.2 ⟨j, ?_⟩) hm ?_
    · rw [List.getElem?_set_ne hj.symm]
      exact hst'
    · simp [hsc]
  · intro ho st' hmem hm hip
    obtain ⟨j, hj⟩ := List.mem_iff_getElem?.1 hmem
    by_cases hjk : j = k
    · rw [hjk, List.getElem?_set_self hk] at hj
      obtain rfl := Option.some.inj hj
      nofun
    · rw [List.getElem?_set_ne (Ne.symm hjk)] at hj
      by_cases hsc : st'.screen = st.screen
      · exact ho st' (List.mem_eraseIdx_iff_getElem?.2 ⟨j, hjk, hj⟩) hm hsc
      · simp only [Function.update_of_ne hsc] at hip
        exact h st' (List.mem_of_getElem? hj) hm hip

/-- **Steps.**  A step keeps every object safe exactly when it meets the condition. -/
theorem guarded_step {a : MapAction} (h : s.Guarded) (hs : step latLng debug s a = some s') :
    s'.Guarded ↔ s.FirstFix debug a := by
  cases a with
  | create screen =>
    obtain rfl := Option.some.inj hs
    constructor
    · intro h'
      by_contra hip
      exact h' _ (List.mem_append_right _ (List.mem_singleton.2 rfl)) rfl hip rfl
    · intro hip st hst hm hne
      rcases List.mem_append.1 hst with hst | hst
      · exact h st hst hm hne
      · rw [List.mem_singleton.1 hst] at hne
        exact absurd hip hne
  | build k =>
    simp only [step] at hs
    split_ifs at hs
    obtain rfl := Option.some.inj hs
    exact iff_of_true h trivial
  | dispose k =>
    refine iff_of_true ?_ trivial
    simp only [step] at hs
    split at hs
    · split_ifs at hs
      obtain rfl := Option.some.inj hs
      intro st' hst' hm
      rcases List.mem_or_eq_of_mem_set hst' with hst' | rfl
      · exact h st' hst' hm
      · cases hm
    · cases hs
  | position k p =>
    simp only [step] at hs
    split at hs
    · rename_i hst
      obtain rfl := Option.some.inj hs
      rw [guarded_locate h hst]
      refine ⟨fun ho st hst' _ => ?_, fun hc => hc _ hst rfl⟩
      exact ho
    · rename_i hst
      obtain rfl := Option.some.inj hs
      refine iff_of_true h fun st hst' hsc => ?_
      rw [← Option.some.inj (hst.symm.trans hst')] at hsc
      cases hsc
    · cases hs
  | placemarks i ps =>
    simp only [step] at hs
    split at hs
    · rename_i j p hi
      obtain rfl := Option.some.inj hs
      have hcond : s.FirstFix debug (.placemarks i ps) ↔ ((s.isMounted j || !debug) = true →
          ∀ st ∈ s.states[j]?, s.OthersLocated j st.screen) :=
        ⟨fun hc => hc _ hi, fun hc h' hi' => Option.some.inj (hi.symm.trans hi') ▸ hc⟩
      rw [hcond]
      split_ifs with ha
      · cases hst : s.states[j]? with
        | none =>
          refine iff_of_true ?_ fun _ st hst' => nomatch hst'
          simp only [locate, hst]
          exact h
        | some st =>
          have h' : ({ s with geocoding := s.geocoding.eraseIdx i } : MapStates L).Guarded := h
          rw [guarded_locate h' hst p]
          refine ⟨fun ho _ st' hst' => Option.some.inj hst' ▸ ho, fun hc => hc ha st rfl⟩
      · exact iff_of_true h fun ha' => absurd ha' ha
    · cases hs
  | geocodingFailed i =>
    simp only [step] at hs
    split at hs
    · obtain rfl := Option.some.inj hs
      exact iff_of_true h trivial
    · cases hs

/-- **Positions of all objects.**  In every state of a run no mounted object
    dereferences null, if and only if every step meets the condition. -/
theorem nullSafe_iff_firstFix {as : List MapAction} {t : MapStates L}
    (hr : run (step latLng debug) start as = some t) :
    (∀ as' s', as' <+: as → run (step latLng debug) start as' = some s' → s'.NullSafe latLng) ↔
      Along (step latLng debug) (FirstFix debug) start as := by
  refine forall_prefix_iff_along (I := Guarded) (fun s h => (nullSafe_iff_guarded latLng).2 h)
    (fun s a s' h hc hs => (guarded_step h hs).2 hc) (fun s a s' h hs hn => ?_) ?_ hr
  · exact (guarded_step h hs).1 ((nullSafe_iff_guarded latLng).1 hn)
  · exact fun st hst => absurd hst List.not_mem_nil

end

/-- The two screens, each with one object and its positions. -/
def oneVisit : List MapAction :=
  [.create .userLocation, .position 0 ⟨1, 2⟩, .dispose 0, .create .customMap, .build 1,
    .position 1 ⟨1, 2⟩, .placemarks 0 []]

theorem oneVisit_nullSafe :
    ∃ t : MapStates (ℚ × ℚ), run (step Prod.mk true) start oneVisit = some t ∧
      ∀ as' s', as' <+: oneVisit → run (step Prod.mk true) start as' = some s' →
        s'.NullSafe Prod.mk := by
  refine ⟨_, rfl, (nullSafe_iff_firstFix rfl).2 ?_⟩
  decide

end MapStates

end Mazdoor
