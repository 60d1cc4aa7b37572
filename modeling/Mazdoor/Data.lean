/-
  The data of the app: the module globals (`lib/Gvariable.dart`), the keys of
  `SharedPreferences`, positions and placemarks, and the documents of
  Firestore with the fields that each writer puts into them.

  * `Globals`, `Prefs`: the in-memory and the on-device copies of the account's
    data; a null variable or a missing key is `none`;
  * `registrationFields`, `locationFields`, `pictureFields`
    (`lib/Services/user_services.dart`), `laborRequestFields` and
    `fromUserFields` (`lib/Screens/custom_map.dart`): the fields of the writes;
  * `Site`: the places in the code that write to Firestore, with the path that
    each of them addresses (`Site.path`) and its mode.
-/
import Mathlib.Algebra.Order.Field.Rat
import Mazdoor.Lib.DocStore

namespace Mazdoor

/-! ## Globals and preferences -/

/-- The uid of a Firebase account. -/
abbrev Uid : Type := String

/-- The variables of `lib/Gvariable.dart` that the app reads or writes.  A
    `double` of the device's sensors is the rational number it denotes. -/
structure Globals where
  userName : Option String := none
  userPhoneNumber : Option String := none
  userId : Option Uid := none
  userImage : Option String := none
  userToken : Option String := none
  userAddress : Option String := none
  userLatitude : Option ℚ := none
  userLongitude : Option ℚ := none
  deriving DecidableEq

/-- The keys of `SharedPreferences` that the app uses. -/
structure Prefs where
  currentUserId : Option Uid := none
  userName : Option String := none
  deriving DecidableEq

/-- `UserID.functionUserId` (`lib/Services/user_id.dart`). -/
def functionUserId (p : Prefs) : Option Uid := p.currentUserId

/-- A position event of the geolocator. -/
structure Position where
  latitude : ℚ
  longitude : ℚ
  deriving DecidableEq

/-- The parts of a placemark that `CustomMap` prints. -/
structure Placemark where
  name : Option String
  locality : Option String
  postalCode : Option String
  deriving DecidableEq

/-- Dart's `toString()` on a nullable string. -/
def toStringOrNull (s : Option String) : String := s.getD "null"

/-- The address that `CustomMap` builds from the first placemark of a reply. -/
def presentAddress (p : Placemark) : String :=
  toStringOrNull p.name ++ ", " ++ toStringOrNull p.locality ++ ", Postal Code:" ++
    toStringOrNull p.postalCode

/-! ## Documents -/

/-- The value of a field that is present.  Firestore and Dart keep integers and
    doubles apart. -/
inductive Val where
  | null
  | str (s : String)
  | int (n : ℤ)
  | double (q : ℚ)
  deriving DecidableEq

def Val.ofString : Option String → Val
  | none => .null
  | some s => .str s

def Val.ofDouble : Option ℚ → Val
  | none => .null
  | some q => .double q

@[simp]
theorem Val.ofString_eq_null {s : Option String} : Val.ofString s = .null ↔ s = none := by
  cases s <;> simp [Val.ofString]

@[simp]
theorem Val.ofString_eq_str {s : Option String} {v : String} :
    Val.ofString s = .str v ↔ s = some v := by
  cases s <;> simp [Val.ofString]

@[simp]
theorem Val.ofDouble_eq_null {q : Option ℚ} : Val.ofDouble q = .null ↔ q = none := by
  cases q <;> simp [Val.ofDouble]

/-- A segment of a path: a name, or an id that Firestore generates. -/
inductive Seg where
  | name (s : String)
  | auto (n : ℕ)
  deriving DecidableEq

abbrev Path : Type := List Seg
abbrev Fields : Type := List (String × Val)
abbrev Doc : Type := DocStore.Doc String Val
abbrev Store : Type := DocStore.Store Seg String Val

/-- `data[k]`: a field that is not there reads as null. -/
def field (d : Doc) (k : String) : Val := (d k).getD .null

/-- A labor's document in `Labors_Info`, with its id (`requestId`). -/
structure Labor where
  requestId : String
  laborType : Option String
  laborName : Option String
  laborToken : Option String
  laborLatitude : Option ℚ
  laborLongitude : Option ℚ
  deriving DecidableEq

/-- `request["laborType"] + requestId`; `null + …` throws. -/
def Labor.key (l : Labor) : Option String :=
  l.laborType.map (· ++ l.requestId)

/-! ## Fields of the writes -/

/-- `addPhoneNumbertoFirestoreCollection`. -/
def registrationFields (g : Globals) : Fields :=
  [("userPhoneNumber", .ofString g.userPhoneNumber), ("userId", .ofString g.userId),
    ("userName", .ofString g.userName), ("userImage", .ofString g.userImage),
    ("userToken", .ofString g.userToken)]

/-- `userLocationStore`. -/
def locationFields (g : Globals) : Fields :=
  [("userAddress", .ofString g.userAddress), ("userLatitude", .ofDouble g.userLatitude),
    ("userLongitude", .ofDouble g.userLongitude)]

/-- `updateProfilePic`. -/
def pictureFields (picUrl : String) : Fields := [("userImage", .str picUrl)]

/-- The request header that a marker tap writes. -/
def laborRequestFields (l : Labor) : Fields :=
  [("laborId", .str l.requestId), ("laborName", .ofString l.laborName),
    ("laborToken", .ofString l.laborToken)]

/-- The request that a marker tap files, from the user's profile. -/
def fromUserFields (profile : Doc) : Fields :=
  [("userName", field profile "userName"), ("userPhone", field profile "userPhoneNumber"),
    ("userToken", field profile "userToken")]

/-! ## Paths -/

/-- A path of the client library: its segments are separated by slashes. -/
def segments (path : String) : Path :=
  (path.toList.splitOn '/').map fun cs => .name (String.ofList cs)

/-- `Users_Info/<id>`. -/
def usersInfo (id : Seg) : Path := [.name "Users_Info", id]

/-- `Labor_Requests/<key>`. -/
def laborRequests (key : String) : Path := .name "Labor_Requests" :: segments key

/-- `Labor_Requests/<key>/From_User/<id>`. -/
def fromUser (key : String) (id : Seg) : Path := laborRequests key ++ [.name "From_User", id]

/-- The writes of the app. -/
inductive Site where
  | registration (id : Seg)
  | location (id : Seg)
  | picture (id : Seg)
  | laborRequest (key : String)
  | fromUser (key : String) (id : Seg)
  deriving DecidableEq

def Site.path : Site → Path
  | .registration id | .location id | .picture id => usersInfo id
  | .laborRequest key => laborRequests key
  | .fromUser key id => Mazdoor.fromUser key id

/-- The document of `Users_Info` that a write addresses. -/
def Site.user : Site → Option Seg
  | .registration id | .location id | .picture id => some id
  | _ => none

/-- The effect of a write on the store: `merge: true`, `updateData`, or a plain `setData`. -/
def Site.write (site : Site) (st : Store) (fs : Fields) : Store :=
  match site with
  | .registration _ | .location _ => DocStore.mergeData st site.path fs
  | .picture _ => DocStore.updateData st site.path fs
  | .laborRequest _ | .fromUser _ _ => DocStore.setData st site.path fs

/-- `updateData` needs the document to be there. -/
def Site.accepted (site : Site) (st : Store) : Bool :=
  match site with
  | .picture _ => (st.lookup site.path).isSome
  | _ => true

theorem segments_injective : Function.Injective segments := by
  intro a b h
  have hl : a.toList.splitOn '/' = b.toList.splitOn '/' := by
    refine List.map_injective_iff.2 (fun x y hxy => ?_) h
    exact String.ofList_injective (Seg.name.inj hxy)
  have := congrArg (List.intercalate ['/']) hl
  rw [List.intercalate_splitOn, List.intercalate_splitOn] at this
  exact String.toList_injective this

theorem laborRequests_injective : Function.Injective laborRequests :=
  fun _ _ h => segments_injective (List.cons.inj h).2

@[simp]
theorem usersInfo_inj {a b : Seg} : usersInfo a = usersInfo b ↔ a = b := by
  simp [usersInfo]

/-- Requests and profiles are kept apart by the first segment of their paths. -/
theorem usersInfo_ne_laborRequests (id : Seg) (key : String) (rest : Path) :
    usersInfo id ≠ laborRequests key ++ rest := by
  simp [usersInfo, laborRequests]

/-- **Writes and profiles.**  An accepted write merges its fields into the
    profile that it addresses, and leaves the others alone. -/
theorem Site.lookup_write (site : Site) (st : Store) (fs : Fields) (id : Seg)
    (ha : site.accepted st) :
    (site.write st fs).lookup (usersInfo id) =
      if site.user = some id then
        some (DocStore.merge ((st.lookup (usersInfo id)).getD DocStore.emptyDoc) fs)
      else st.lookup (usersInfo id) := by
  cases site with
  | registration i | location i =>
    simp only [write, path, user, DocStore.lookup_mergeData, usersInfo_inj, Option.some.injEq,
      eq_comm (a := i)]
    split_ifs with h
    · rw [h]
    · rfl
  | picture i =>
    simp only [write, path, user, DocStore.lookup_updateData, usersInfo_inj, Option.some.injEq,
      eq_comm (a := i)]
    split_ifs with h
    · obtain ⟨d, hd⟩ := Option.isSome_iff_exists.1 ha
      simp only [path] at hd
      rw [h, hd]
      rfl
    · rfl
  | laborRequest key =>
    have h := usersInfo_ne_laborRequests id key []
    rw [List.append_nil] at h
    simp [write, path, user, DocStore.lookup_setData, h]
  | fromUser key i =>
    have h := usersInfo_ne_laborRequests id key [.name "From_User", i]
    simp [write, path, user, DocStore.lookup_setData, Mazdoor.fromUser, h]

/-- Which documents there are does not depend on the fields of the writes. -/
theorem Site.keys_write (site : Site) {st₁ st₂ : Store} (h : st₁.keys = st₂.keys)
    (fs₁ fs₂ : Fields) : (site.write st₁ fs₁).keys = (site.write st₂ fs₂).keys := by
  cases site with
  | registration id | location id => exact DocStore.keys_mergeData h _ _ _
  | picture id => exact DocStore.keys_updateData h _ _ _
  | laborRequest key | fromUser key id => exact DocStore.keys_setData h _ _ _

end Mazdoor
