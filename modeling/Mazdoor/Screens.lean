/-
  The screens of the app and the parts of their code that only compute: the
  validators of the registration form and the closures that the position
  listeners pass to `setState`.

  * `Screen` lists the pages of the navigator, by their classes, and the
    stateful widgets inside a page; an `Element` is one of them with a key;
  * `validateUserName` and `validatePhoneNumber` are the validators of
    `lib/Screens/profile.dart`, two uses of one length check;
  * `UserLocation.onPosition` and `CustomMap.onPlacemarks` are the effects of
    the two listeners on the globals: the first never geocodes, the second
    throws before it reaches the globals if the reply is empty.
-/
import Mazdoor.Data

namespace Mazdoor

/-! ## Screens -/

/-- Pages of the navigator, and below them the widgets inside a page.  The
    code of an OTP dialog belongs to the `EnterNumber` state that opened it. -/
inductive Screen where
  | splashScreen
  | signIn
  | enterNumber
  | smsOTPDialog (owner : ℕ)
  | userProfile
  | userLocation
  | dashBoard
  | userMap
  | customMap
  | sideMenu
  | delayedAnimation
  deriving DecidableEq

/-- A `State` object: its class and a key of its own. -/
structure Element where
  screen : Screen
  key : ℕ
  deriving DecidableEq

/-- The routes of the logged-out part: `SignIn`, `EnterNumber` and the OTP dialog. -/
def Screen.isLogin : Screen → Bool
  | .signIn | .enterNumber | .smsOTPDialog _ => true
  | _ => false

/-- The routes of the logged-in part. -/
def Screen.isPostLogin : Screen → Bool
  | .userProfile | .userLocation | .dashBoard | .userMap => true
  | _ => false

/-! ## The registration form -/

/-- The characters that Dart's `trim` removes. -/
def isWhitespace (c : Char) : Bool :=
  let n := c.toNat
  (9 ≤ n && n ≤ 13) || n = 0x20 || n = 0x85 || n = 0xA0 || n = 0x1680 ||
    (0x2000 ≤ n && n ≤ 0x200A) || n = 0x2028 || n = 0x2029 || n = 0x202F || n = 0x205F ||
    n = 0x3000 || n = 0xFEFF

def trim (cs : List Char) : List Char :=
  ((cs.dropWhile isWhitespace).reverse.dropWhile isWhitespace).reverse

/-- Dart's `length`: the number of UTF-16 code units. -/
def length (cs : List Char) : ℕ := (cs.map fun c => if c.toNat < 0x10000 then 1 else 2).sum

/-- A validator that bounds the trimmed length of a field; `none` accepts it. -/
def validateLength (min max : ℕ) (short long : String) (val : String) : Option String :=
  if length (trim val.toList) < min ∨ val.toList = [] then some short
  else if length (trim val.toList) > max then some long
  else none

/-- The validator of the name field. -/
def validateUserName : String → Option String :=
  validateLength 5 15 " Username is too Short" " Username is too Long"

/-- The validator of the phone field. -/
def validatePhoneNumber : String → Option String :=
  validateLength 11 13 " Phone Number is to short" " Phone Number is too Long"

/-- `form.validate()`. -/
def validate (name phone : String) : Bool :=
  validateUserName name = none ∧ validatePhoneNumber phone = none

/-! ## Position listeners -/

/-- `UserLocation._getLocation`: the geocoding is commented out, so its field
    `presentAddress` stays null and `presentAddress.toString()` is the text "null". -/
def UserLocation.onPosition (p : Position) (g : Globals) : Globals :=
  { g with
    userAddress := some (toStringOrNull none)
    userLatitude := some p.latitude
    userLongitude := some p.longitude }

/-- `CustomMap._getlocation`: `placemark[0]` throws on an empty reply. -/
def CustomMap.onPlacemarks (p : Position) (placemark : List Placemark) (g : Globals) : Globals :=
  match placemark with
  | [] => g
  | first :: _ =>
    { g with
      userAddress := some (presentAddress first)
      userLatitude := some p.latitude
      userLongitude := some p.longitude }

end Mazdoor
