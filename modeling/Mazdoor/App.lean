/-
  The app on one device as a state machine.

  Every asynchronous function of the app is cut at its awaits.  What is left to
  do after an await is a `Task`; `resume` is the code from there to the next
  await, under the source's names, and `step` lets any pending task continue at
  any time, so that a list of actions is one interleaving of everything the app
  has started.  The user's taps, position events, acknowledgements and
  rejections of writes, disposals and relaunches are the other actions.

  * `App` holds the signed-in account, the preferences and globals, the route
    stack, the mounted `State` objects, the pending tasks and writes, and the
    backend; `log` records what the app does to the outside;
  * `App.setState` is Flutter's: on a disposed `State` it throws, in a debug
    build before its closure runs and in a release build after it;
  * `App.withContext` is `Navigator.of(context)`, which throws once the
    context's `State` is disposed;
  * `relaunch` ends the process: memory and tasks are lost, while the account,
    the preferences and the writes on their way stay.
-/
import Mazdoor.Lib.Run
import Mazdoor.Lib.Navigator
import Mathlib.Tactic.Simps.Basic
import Mazdoor.Screens

namespace Mazdoor

/-! ## Tasks, writes and events -/

/-- What is left of an asynchronous function after an await.  `k` is the key of
    the `State` (or of the context) that the code uses; `startedBy` is the
    account that was signed in when the operation was started. -/
inductive Task where
  /-- `SplashScreen`: `startTime`, then `currentUser()` in `navigatePage` -/
  | navigatePage (k : ℕ)
  /-- `EnterNumber.pushMessagingToken`: `functionUserId()`, then `getToken()` -/
  | messagingUserId (k : ℕ)
  | messagingToken (k : ℕ)
  /-- `EnterNumber.verifyPhone`: Firebase may call back -/
  | verifyPhone (k : ℕ)
  /-- `smsOTPDialog`, Done: `currentUser()`, then its callback; `d` is the dialog -/
  | doneUser (k d : ℕ)
  | done (k d : ℕ) (user : Option Uid)
  /-- `EnterNumber.signIn`: the preferences, `signInWithCredential`, `currentUser()` -/
  | signInPrefs (k : ℕ)
  | signInCredential (k : ℕ)
  | signIn (k : ℕ) (uid : Uid) (isNewUser : Bool)
  /-- `initiateFacebookLogin`: `logIn`, `signInWithCredential`, its continuation -/
  | facebookLogIn (k : ℕ)
  | facebookCredential (k : ℕ)
  | facebook (k : ℕ) (uid : Uid) (isNewUser : Bool)
  /-- `UserProfile`: `getImage`, `_validityState`, `uploadPic` -/
  | profileImage (k : ℕ)
  | validityState (k : ℕ)
  | uploadPic (k : ℕ) (startedBy : Option Uid)
  /-- `addPhoneNumbertoFirestoreCollection`: the preferences, then the acknowledgement -/
  | addPhoneNumber (k : ℕ) (startedBy : Option Uid)
  | addPhoneNumberDone (k : ℕ) (startedBy : Option Uid)
  /-- `userLocationStore`: the preferences, `functionUserId()`, its return; then
      the callback of `UserLocation` (`k` is its context) -/
  | locationPrefs (k : Option ℕ) (startedBy : Option Uid)
  | locationUserId (k : Option ℕ) (startedBy : Option Uid)
  | locationStore (k : Option ℕ) (startedBy uid : Option Uid)
  | locationDone (k : ℕ) (startedBy : Option Uid)
  /-- `UserLocation.readData` -/
  | readData (k : ℕ)
  /-- `CustomMap._getlocation`: `placemarkFromCoordinates` -/
  | geocode (k : ℕ) (position : Position)
  /-- a marker's `onTap`: the preferences, the header write, the profile read -/
  | tap (labor : Labor) (startedBy : Option Uid)
  | tapHeader (key : String) (startedBy uid : Option Uid)
  | tapProfile (key : String) (startedBy uid : Option Uid)
  /-- `SideMenu`: `getImage`, `uploadPic` -/
  | drawerImage (k : ℕ) (startedBy : Option Uid)
  | drawerUpload (k : ℕ) (startedBy : Option Uid)
  /-- `updateProfilePic`: `currentUser()`, `updateProfile`, `currentUser()`, the query -/
  | picUser (picUrl : String) (startedBy : Option Uid)
  | picUpdate (picUrl : String) (startedBy : Option Uid)
  | picUpdated (picUrl : String) (startedBy : Option Uid)
  | picQuery (picUrl : String) (uid : Uid) (startedBy : Option Uid)
  /-- `DelayedAnimation`: the timer of `initState` -/
  | animation (k : ℕ)
  deriving DecidableEq

/-- How an awaited future completes. -/
inductive Reply where
  | done
  /-- with an error; nothing that awaits it is run -/
  | failed
  /-- the image picker is closed without an image -/
  | cancelled
  | codeSent
  | verificationCompleted
  | credential (uid : Uid)
  | token (token : String)
  | form (name phone : String)
  | url (url : String)
  | placemarks (ps : List Placemark)
  deriving DecidableEq

/-- A write that the backend has not answered yet, with the callbacks of its future. -/
structure Write where
  site : Site
  fields : Fields
  onDone : Option Task
  onError : Option Task
  deriving DecidableEq

/-- What the app does to the outside, in order. -/
inductive Event where
  /-- a write is handed to Firestore -/
  | issued (site : Site) (fields : Fields) (startedBy : Option Uid)
  /-- the backend applies a write -/
  | committed (site : Site) (fields : Fields)
  /-- a write creates a document of `Users_Info` -/
  | created (id : Seg) (fields : Fields)
  /-- the future of `userLocationStore` completes; the stored profile at that moment -/
  | located (id : Seg) (address latitude longitude : Val)
  /-- the greeting of `UserLocation` -/
  | greeting (userName : Option String)
  /-- the picture in `SideMenu` -/
  | picture (userImage : Option String)
  /-- a position event reaches a listener -/
  | position (position : Position)
  /-- the geocoder's reply reaches the handler of a position -/
  | placemarks (position : Position) (ps : List Placemark)
  /-- `setState` on a disposed `State` -/
  | setStateAfterDispose (k : ℕ)
  /-- `forward()` on a disposed `AnimationController` -/
  | forwardAfterDispose (k : ℕ)
  deriving DecidableEq

/-! ## State -/

structure App where
  auth : Option Uid
  accounts : List Uid
  prefs : Prefs
  global : Globals
  stack : List Element
  mounted : List Element
  nextKey : ℕ
  /-- the `UserProfile` and `SideMenu` states with a picked image -/
  images : List ℕ
  tasks : List Task
  store : Store
  pending : List Write
  nextAuto : ℕ
  log : List Event

namespace App

def isMounted (s : App) (k : ℕ) : Bool := s.mounted.any (·.key == k)

/-- The screen on top of the navigation stack. -/
def top (s : App) : Option Screen := s.stack.head?.map (·.screen)

/-- The document of a user. -/
def profile (s : App) (id : Seg) : Option Doc := s.store.lookup (usersInfo id)

/-- `State k` is mounted, or the build has no assertions: the closure of `setState` runs. -/
def assigns (debug : Bool) (s : App) (k : ℕ) : Bool := s.isMounted k || !debug

@[simps]
def spawn (s : App) (t : Task) : App := { s with tasks := s.tasks ++ [t] }

@[simps]
def spawnAll (s : App) (ts : List Task) : App := { s with tasks := s.tasks ++ ts }

/-- Task `i` is taken out of the queue. -/
@[simps]
def dequeue (s : App) (i : ℕ) : App := { s with tasks := s.tasks.eraseIdx i }

/-- Write `j` is answered. -/
@[simps]
def answer (s : App) (j : ℕ) : App := { s with pending := s.pending.eraseIdx j }

@[simps]
def emit (s : App) (e : Event) : App := { s with log := s.log ++ [e] }

@[simps]
def setGlobal (s : App) (f : Globals → Globals) : App := { s with global := f s.global }

/-! ### `State` objects -/

/-- The tasks that `initState` starts. -/
def initTasks (k : ℕ) : Screen → List Task
  | .splashScreen => [.navigatePage k]
  | .enterNumber => [.messagingUserId k]
  | .userLocation => [.readData k]
  | .delayedAnimation => [.animation k]
  | _ => []

/-- Create a `State` and run its `initState`. -/
@[simps]
def create (s : App) (sc : Screen) : App :=
  { s with
    mounted := ⟨sc, s.nextKey⟩ :: s.mounted
    nextKey := s.nextKey + 1
    tasks := s.tasks ++ initTasks s.nextKey sc }

/-- Dispose the `State` `k`. -/
@[simps]
def dispose (s : App) (k : ℕ) : App := { s with mounted := s.mounted.filter (·.key ≠ k) }

/-- The error of `setState` on a disposed `State`. -/
def stateError (s : App) (k : ℕ) : List Event :=
  if s.isMounted k then [] else [.setStateAfterDispose k]

@[simp]
theorem spawn_stateError (s : App) (t : Task) (k : ℕ) : (s.spawn t).stateError k = s.stateError k :=
  rfl

@[simp]
theorem emit_stateError (s : App) (e : Event) (k : ℕ) : (s.emit e).stateError k = s.stateError k :=
  rfl

/-- `setState` on the state `k` with a closure that assigns globals. -/
@[simps]
def setState (debug : Bool) (s : App) (k : ℕ) (f : Globals → Globals) : App :=
  { s with
    global := if s.assigns debug k then f s.global else s.global
    log := s.log ++ s.stateError k }

/-- `setState` on the state `k` with a closure that sets or clears `_profileImage`. -/
@[simps]
def setImage (debug : Bool) (s : App) (k : ℕ) (picked : Bool) : App :=
  { s with
    images := if s.assigns debug k then
        if picked then k :: s.images else s.images.filter (· ≠ k)
      else s.images
    log := s.log ++ s.stateError k }

/-- What the state `k` shows when it is rebuilt. -/
@[simps]
def display (s : App) (k : ℕ) (e : Event) : App :=
  { s with log := s.log ++ if s.isMounted k then [e] else [] }

/-! ### Navigation -/

/-- Code that starts with `Navigator.of(context)`. -/
def withContext (s : App) (k : ℕ) (f : App → App) : App := if s.isMounted k then f s else s

@[simps]
def pop (s : App) : App := { s with stack := Navigator.pop s.stack }

@[simps]
def push (s : App) (sc : Screen) : App :=
  { s.create sc with stack := Navigator.push ⟨sc, s.nextKey⟩ s.stack }

/-- On an empty stack `pushReplacement` throws, and no `State` is created. -/
@[simps]
def pushReplacement (s : App) (sc : Screen) : App :=
  { s with
    stack := Navigator.pushReplacement ⟨sc, s.nextKey⟩ s.stack
    mounted := if s.stack = [] then s.mounted else ⟨sc, s.nextKey⟩ :: s.mounted
    nextKey := if s.stack = [] then s.nextKey else s.nextKey + 1
    tasks := s.tasks ++ if s.stack = [] then [] else initTasks s.nextKey sc }

@[simps]
def pushAndRemoveAll (s : App) (sc : Screen) : App :=
  { s.create sc with
    stack := Navigator.pushAndRemoveUntil ⟨sc, s.nextKey⟩ (fun _ => false) s.stack }

/-! ### Firebase -/

/-- The id that `document(id)` addresses: a fresh one for null. -/
def docId (s : App) : Option Uid → Seg
  | some u => .name u
  | none => .auto s.nextAuto

/-- `document(id)`. -/
@[simps]
def document (s : App) (id : Option Uid) : App :=
  { s with nextAuto := if id.isNone then s.nextAuto + 1 else s.nextAuto }

/-- Hand a write to Firestore. -/
@[simps]
def issue (s : App) (w : Write) (startedBy : Option Uid) : App :=
  { s with
    pending := s.pending ++ [w]
    log := s.log ++ [.issued w.site w.fields startedBy] }

/-- `signInWithCredential` succeeds for `uid`. -/
@[simps]
def authenticate (s : App) (uid : Uid) : App :=
  { s with auth := some uid, accounts := uid :: s.accounts }

/-- `isNewUser` of the `AuthResult`. -/
def isNewUser (s : App) (uid : Uid) : Bool := uid ∉ s.accounts

/-- The branch of a first-time account stores its uid. -/
@[simps]
def setUserId (s : App) (uid : Uid) : App :=
  { s with
    prefs := { s.prefs with currentUserId := some uid }
    global := { s.global with userId := some uid } }

/-- The event of a write that creates a document of `Users_Info`. -/
def creation (s : App) (w : Write) : List Event :=
  match w.site.user with
  | some id => if (s.profile id).isNone then [.created id w.fields] else []
  | none => []

/-- The backend applies a write. -/
@[simps]
def commit (s : App) (w : Write) : App :=
  { s with
    store := w.site.write s.store w.fields
    tasks := s.tasks ++ w.onDone.toList
    log := s.log ++ .committed w.site w.fields :: s.creation w }

/-- The process ends and the app is started again. -/
@[simps]
def relaunch (s : App) : App :=
  { s with
    global := {}
    stack := [⟨.splashScreen, s.nextKey⟩]
    mounted := [⟨.splashScreen, s.nextKey⟩]
    nextKey := s.nextKey + 1
    images := []
    tasks := [.navigatePage s.nextKey]
    pending := s.pending.map fun w => { w with onDone := none, onError := none } }

/-- The first start of the app, on a backend with the given accounts and documents. -/
@[simps]
def launch (accounts : List Uid) (store : Store) : App :=
  { auth := none, accounts := accounts, prefs := {}, global := {},
    stack := [⟨.splashScreen, 0⟩], mounted := [⟨.splashScreen, 0⟩], nextKey := 1,
    images := [], tasks := [.navigatePage 0], store := store, pending := [], nextAuto := 0,
    log := [] }

end App
end Mazdoor
