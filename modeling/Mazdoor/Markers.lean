/-
  The markers of the map (`populateClient` and `initsMarker` of
  `lib/Screens/custom_map.dart`).

  `populateClient` makes a marker of every document of `Labors_Info` in a loop
  without a guard.  The coordinates are dynamic and `LatLng` takes doubles, so
  that it throws on null and on an integer, and the exception leaves the loop.

  * `AllMarked`: exactly one marker for each labor with a location, at that
    location, and no other marker;
  * `marker_lost`: a labor without a location, before one that has it;
  * `complete_iff_doublesFirst`: the markers are complete if and only if every
    labor with a location has it in doubles and comes before those that have not.
-/
import Mathlib.Data.Finset.Insert
import Mazdoor.Lib.Loop
import Mazdoor.Data

namespace Mazdoor

open Loop

/-! ## Markers -/

/-- A document of `Labors_Info`, with its id. -/
structure LaborDocument where
  documentID : String
  data : Doc

/-- The error of a call whose argument is not a double. -/
inductive TypeError where
  | notADouble
  deriving DecidableEq

/-- A marker of the map, at a position of the map library's type `L`. -/
structure Marker (L : Type) where
  markerId : String
  position : L
  title : String
  snippet : String
  deriving DecidableEq

/-- The number that a value is. -/
def Val.number : Val → Option ℚ
  | .int n => some n
  | .double q => some q
  | .null | .str _ => none

/-- The double that a value is: Dart does not convert an integer. -/
def Val.asDouble : Val → Option ℚ
  | .double q => some q
  | .null | .str _ | .int _ => none

/-- The coordinates of a labor, as `f` reads them. -/
def LaborDocument.coordinates (f : Val → Option ℚ) (d : LaborDocument) : Option (ℚ × ℚ) :=
  match f (field d.data "laborLatitude"), f (field d.data "laborLongitude") with
  | some lat, some lng => some (lat, lng)
  | _, _ => none

/-- The location of a labor, if both coordinates are numbers. -/
def LaborDocument.location (d : LaborDocument) : Option (ℚ × ℚ) := d.coordinates Val.number

/-- The coordinates that `LatLng` takes. -/
def LaborDocument.doubles (d : LaborDocument) : Option (ℚ × ℚ) := d.coordinates Val.asDouble

section
-- the constructor `LatLng` of the map library, and Dart's `toString()` of a double
variable {L : Type} [DecidableEq L] (latLng : ℚ → ℚ → L) (doubleToString : ℚ → String)

/-- `LatLng(latitude, longitude)`: throws on what is not a double. -/
def newLatLng (latitude longitude : Val) : Except TypeError L :=
  match latitude.asDouble, longitude.asDouble with
  | some lat, some lng => .ok (latLng lat lng)
  | _, _ => .error .notADouble

/-- Dart's `toString()` on a field. -/
def valToString : Val → String
  | .null => "null"
  | .str s => s
  | .int n => toString n
  | .double q => doubleToString q

/-- `initsMarker`: the set of markers grows by one, unless `LatLng` throws.  What
    a tap on the marker does is in `Requests`. -/
def initsMarker (markers : Finset (Marker L)) (d : LaborDocument) :
    Except TypeError (Finset (Marker L)) := do
  let position ← newLatLng latLng (field d.data "laborLatitude") (field d.data "laborLongitude")
  return insert
    { markerId := d.documentID
      position
      title := valToString doubleToString (field d.data "laborType")
      snippet := valToString doubleToString (field d.data "laborName") } markers

/-- The callback of `populateClient`: the markers of a new map after the loop,
    and the exception that ended it. -/
def populateClient (documents : List LaborDocument) : Finset (Marker L) × Option TypeError :=
  if documents ≠ [] then forEach (initsMarker latLng doubleToString) ∅ documents
  else (∅, none)

end

section
variable {L : Type} (latLng : ℚ → ℚ → L)

/-- The marker has the id and the coordinates of the labor. -/
def Marks (m : Marker L) (d : LaborDocument) : Prop :=
  m.markerId = d.documentID ∧ ∃ lat lng, d.location = some (lat, lng) ∧ m.position = latLng lat lng

/-- Exactly one marker for each labor with a location, and no other marker. -/
def AllMarked (documents : List LaborDocument) (markers : Finset (Marker L)) : Prop :=
  (∀ d ∈ documents, d.location.isSome → ∃ m ∈ markers, Marks latLng m d ∧
    ∀ m' ∈ markers, m'.markerId = d.documentID → m' = m) ∧
  ∀ m ∈ markers, ∃ d ∈ documents, Marks latLng m d

end

/-- A labor with a location has it in doubles, and so has every labor before it. -/
def DoublesFirst (documents : List LaborDocument) : Prop :=
  (∀ d ∈ documents, d.location.isSome → d.doubles.isSome) ∧
    documents.Pairwise fun a b => b.location.isSome → a.doubles.isSome

/-! ## Lost markers -/

/-- A labor at these coordinates. -/
def laborAt (documentID : String) (latitude longitude : Val) : LaborDocument :=
  ⟨documentID, DocStore.merge DocStore.emptyDoc
    [("laborLatitude", latitude), ("laborLongitude", longitude)]⟩

/-- A labor without a location, and one with a location. -/
def lostThenLocated : List LaborDocument :=
  [⟨"a", DocStore.emptyDoc⟩, laborAt "b" (.double (63 / 2)) (.double (297 / 4))]

/-- **The claimed markers are not there**: the second labor has no marker. -/
theorem marker_lost :
    (lostThenLocated.map (·.documentID)).Nodup ∧
      ¬ AllMarked Prod.mk lostThenLocated
        (populateClient Prod.mk (fun q => toString q.num) lostThenLocated).1 := by
  refine ⟨by decide, fun h => ?_⟩
  obtain ⟨m, hm, -⟩ := h.1 _ (List.mem_cons_of_mem _ List.mem_cons_self) rfl
  exact absurd hm (Finset.notMem_empty m)

/-! ## The loop -/

section
variable {L : Type} [DecidableEq L] {latLng : ℚ → ℚ → L} {doubleToString : ℚ → String}
  {documents : List LaborDocument}

/-- The marker of a labor at a location. -/
def markerAt (latLng : ℚ → ℚ → L) (doubleToString : ℚ → String) (d : LaborDocument)
    (l : ℚ × ℚ) : Marker L where
  markerId := d.documentID
  position := latLng l.1 l.2
  title := valToString doubleToString (field d.data "laborType")
  snippet := valToString doubleToString (field d.data "laborName")

omit [DecidableEq L] in
theorem newLatLng_eq (d : LaborDocument) :
    newLatLng latLng (field d.data "laborLatitude") (field d.data "laborLongitude") =
      match d.doubles with
      | some (lat, lng) => .ok (latLng lat lng)
      | none => .error .notADouble := by
  unfold newLatLng LaborDocument.doubles LaborDocument.coordinates
  cases (field d.data "laborLatitude").asDouble <;>
    cases (field d.data "laborLongitude").asDouble <;> rfl

theorem Val.number_of_asDouble {v : Val} {q : ℚ} (h : v.asDouble = some q) : v.number = some q := by
  cases v <;> simp only [asDouble, Option.some.injEq, reduceCtorEq] at h
  exact congrArg some h

/-- The coordinates that `LatLng` takes are the labor's location. -/
theorem LaborDocument.location_of_doubles {d : LaborDocument} {l : ℚ × ℚ}
    (h : d.doubles = some l) : d.location = some l := by
  unfold doubles coordinates at h
  split at h
  · next lat lng hlat hlng =>
    rw [location, coordinates, Val.number_of_asDouble hlat, Val.number_of_asDouble hlng]
    exact h
  · cases h

/-- One iteration. -/
theorem initsMarker_eq (markers : Finset (Marker L)) (d : LaborDocument) :
    initsMarker latLng doubleToString markers d =
      match d.doubles with
      | some l => .ok (insert (markerAt latLng doubleToString d l) markers)
      | none => .error .notADouble := by
  rw [initsMarker, newLatLng_eq]
  cases d.doubles <;> rfl

/-- The set after an iteration that does not throw. -/
def addMarker (latLng : ℚ → ℚ → L) (doubleToString : ℚ → String) (markers : Finset (Marker L))
    (d : LaborDocument) : Finset (Marker L) :=
  match d.doubles with
  | some l => insert (markerAt latLng doubleToString d l) markers
  | none => markers

theorem mem_foldl_addMarker {m : Marker L} {markers : Finset (Marker L)} :
    m ∈ documents.foldl (addMarker latLng doubleToString) markers ↔
      m ∈ markers ∨ ∃ d ∈ documents, ∃ l, d.doubles = some l ∧
        m = markerAt latLng doubleToString d l := by
  induction documents generalizing markers with
  | nil => simp
  | cons d documents ih =>
    rw [List.foldl_cons, ih, addMarker]
    cases hd : d.doubles with
    | none => simp [hd]
    | some l =>
      simp only [Finset.mem_insert, List.exists_mem_cons_iff, hd, Option.some.injEq,
        exists_eq_left', or_assoc, or_left_comm]

/-- **The loop.**  The markers are those of the labors before the first one on
    which `LatLng` throws. -/
theorem mem_populateClient {m : Marker L} :
    m ∈ (populateClient latLng doubleToString documents).1 ↔
      ∃ d ∈ documents.takeWhile (·.doubles.isSome), ∃ l, d.doubles = some l ∧
        m = markerAt latLng doubleToString d l := by
  have hloop : (forEach (initsMarker latLng doubleToString) ∅ documents).1 =
      (documents.takeWhile (·.doubles.isSome)).foldl (addMarker latLng doubleToString) ∅ := by
    refine fst_forEach (fun s d hd => ?_) (fun s d hd => ?_) ∅ documents
    · obtain ⟨l, hl⟩ := Option.isSome_iff_exists.1 hd
      rw [initsMarker_eq, addMarker, hl]
    · have hnone : d.doubles = none := by simpa using hd
      rw [initsMarker_eq, hnone]
      exact ⟨_, rfl⟩
  have hmem : m ∈ (populateClient latLng doubleToString documents).1 ↔
      m ∈ (forEach (initsMarker latLng doubleToString) ∅ documents).1 := by
    unfold populateClient
    split_ifs with h
    · rfl
    · rw [not_not.1 h, forEach]
  rw [hmem, hloop, mem_foldl_addMarker, or_iff_right (Finset.notMem_empty m)]

/-- **Markers of all labors.**  Exactly one marker for each labor with a
    location, and no other, if and only if every labor with a location, and every
    labor before one, has both coordinates in doubles. -/
theorem complete_iff_doublesFirst (hid : (documents.map (·.documentID)).Nodup) :
    AllMarked latLng documents (populateClient latLng doubleToString documents).1 ↔
      DoublesFirst documents := by
  have hinj : ∀ a ∈ documents, ∀ b ∈ documents, a.documentID = b.documentID → a = b :=
    fun a ha b hb h => List.inj_on_of_nodup_map hid ha hb h
  have htake : ∀ d ∈ documents.takeWhile (·.doubles.isSome), d ∈ documents := fun d hd =>
    (List.takeWhile_sublist _).subset hd
  rw [DoublesFirst, ← forall_mem_takeWhile (p := fun d : LaborDocument => d.doubles.isSome)
    (q := fun d => d.location.isSome) (.of_map _ hid)]
  constructor
  · -- the marker of a labor is that of an iteration, and the id tells which
    intro h d hd hl
    obtain ⟨m, hm, ⟨hmd, -⟩, -⟩ := h.1 d hd hl
    obtain ⟨d', hd', l, -, rfl⟩ := mem_populateClient.1 hm
    rw [← hinj d' (htake d' hd') d hd hmd]
    exact hd'
  · intro h
    constructor
    · intro d hd hl
      have hdt := h d hd hl
      obtain ⟨l, hl'⟩ := Option.isSome_iff_exists.1 (List.mem_takeWhile_imp (p := fun d : LaborDocument => d.doubles.isSome) hdt)
      refine ⟨markerAt latLng doubleToString d l, mem_populateClient.2 ⟨d, hdt, l, hl', rfl⟩,
        ⟨rfl, l.1, l.2, d.location_of_doubles hl', rfl⟩, ?_⟩
      intro m hm hmd
      obtain ⟨d', hd', l', hl'', rfl⟩ := mem_populateClient.1 hm
      obtain rfl := hinj d' (htake d' hd') d hd hmd
      rw [Option.some.inj (hl'.symm.trans hl'')]
    · intro m hm
      obtain ⟨d, hd, l, hl, rfl⟩ := mem_populateClient.1 hm
      exact ⟨d, htake d hd, rfl, l.1, l.2, d.location_of_doubles hl, rfl⟩

end

/-- The same labors in the other order. -/
theorem locatedThenLost_complete :
    AllMarked Prod.mk lostThenLocated.reverse
      (populateClient Prod.mk (fun q => toString q.num) lostThenLocated.reverse).1 :=
  (complete_iff_doublesFirst (by decide)).2
    ⟨by decide, .cons (by decide) (.cons (by decide) .nil)⟩

/-- An integer is a number, and `LatLng` throws on it. -/
example : ¬ DoublesFirst [laborAt "a" (.int 31) (.double (297 / 4))] := by
  rintro ⟨h, -⟩
  exact absurd (h _ List.mem_cons_self rfl) (by decide)

end Mazdoor
