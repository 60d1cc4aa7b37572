/-
  The steps of the app.

  * `resume debug s t r`: the code of the task `t` after its future completed
    with `r`, up to its next await (`debug`: assertions are enabled);
  * `step debug s a`: one action of the user, the device, the backend or the
    event loop.

  A reply `failed` ends the function that awaits it: the app either prints the
  error or does not handle it.
-/
import Mazdoor.App

namespace Mazdoor

/-- One action on the app. -/
inductive Action where
  /-- the system's back button -/
  | back
  | relaunch
  /-- Flutter disposes the `State` with this key -/
  | dispose (k : ℕ)
  /-- `SignIn`: an entrance animation, "Sign up with phone", the Facebook button -/
  | buildAnimation
  | openEnterNumber
  | facebookSignIn
  /-- `EnterNumber`: Continue -/
  | continuePhone
  /-- the OTP dialog: Done -/
  | doneOTP
  /-- `UserProfile`: the picture button, Continue -/
  | pickProfileImage
  | continueProfile
  /-- `UserLocation`: Continue -/
  | continueLocation
  /-- `DashBoard`: a card, the drawer -/
  | openMap
  | openDrawer
  /-- `SideMenu`: the picture button, Sign Out -/
  | pickDrawerImage (k : ℕ)
  | signOut
  /-- `UserMap` shows its map tab -/
  | showCustomMap
  /-- `CustomMap`: Proceed, a marker -/
  | proceed
  | tapMarker (labor : Labor)
  /-- the geolocator delivers an event to the listener of the `State` `k` -/
  | position (k : ℕ) (p : Position)
  /-- the future that task `i` awaits completes -/
  | resume (i : ℕ) (r : Reply)
  /-- the backend applies, or rejects, the pending write `j` -/
  | commit (j : ℕ)
  | reject (j : ℕ)
  deriving DecidableEq

namespace App

/-- The code of a task from its await to the next. -/
def resume (debug : Bool) (s : App) : Task → Reply → Option App
  | _, .failed => some s
  -- `lib/Screens/splash_screen.dart`
  | .navigatePage k, .done => some <| s.withContext k fun s =>
      s.pushAndRemoveAll (if s.auth.isSome then .dashBoard else .signIn)
  -- `lib/Screens/enter_number.dart`
  | .messagingUserId k, .done => some (s.spawn (.messagingToken k))
  | .messagingToken k, .token t => some <|
      s.setState debug k ({ · with userToken := some t })
  | .verifyPhone k, .codeSent => some <|
      (s.spawn (.verifyPhone k)).withContext k (·.push (.smsOTPDialog k))
  | .verifyPhone k, .verificationCompleted => some <|
      (s.spawn (.verifyPhone k)).spawn (.signInPrefs k)
  | .doneUser k d, .done => some (s.spawn (.done k d s.auth))
  | .done _ d (some _), .done => some <| s.withContext d fun s => s.pop.push .dashBoard
  | .done k _ none, .done => some (s.spawn (.signInPrefs k))
  | .signInPrefs k, .done => some (s.spawn (.signInCredential k))
  | .signInCredential k, .credential uid => some <|
      (s.authenticate uid).spawn (.signIn k uid (s.isNewUser uid))
  | .signIn k uid true, .done => some <|
      if s.isMounted k then (s.setUserId uid).pushReplacement .userProfile else s
  | .signIn k _ false, .done => some <| s.withContext k fun s =>
      s.pop.pushReplacement .userLocation
  -- `UserServices.initiateFacebookLogin`
  | .facebookLogIn k, .done => some (s.spawn (.facebookCredential k))
  | .facebookCredential k, .credential uid => some <|
      (s.authenticate uid).spawn (.facebook k uid (s.isNewUser uid))
  | .facebook k uid true, .done => some <|
      (s.setUserId uid).withContext k (·.pushReplacement .userProfile)
  | .facebook k _ false, .done => some <| s.withContext k (·.pushReplacement .userLocation)
  -- `lib/Screens/profile.dart`
  | .profileImage k, .done => some (s.setImage debug k true)
  | .profileImage k, .cancelled => some (s.setImage debug k false)
  | .validityState k, .form name phone => some <|
      -- the form's `currentState` is null once the screen is disposed
      if s.isMounted k ∧ validate name phone then
        { s with prefs := { s.prefs with userName := some name } }.setGlobal
          ({ · with userName := some name, userPhoneNumber := some phone })
      else s
  | .uploadPic k startedBy, .url u =>
      let s' := s.setState debug k ({ · with userImage := some u })
      some (if s.isMounted k then s'.spawn (.addPhoneNumber k startedBy) else s')
  -- `UserServices.addPhoneNumbertoFirestoreCollection`
  | .addPhoneNumber k startedBy, .done =>
      let currentUserId := s.prefs.currentUserId
      some <| (s.document currentUserId).issue
        ⟨.registration (s.docId currentUserId), registrationFields s.global,
          some (.addPhoneNumberDone k startedBy), none⟩ startedBy
  | .addPhoneNumberDone k _, .done => some <| s.withContext k (·.pushReplacement .userLocation)
  -- `UserServices.userLocationStore`
  | .locationPrefs k startedBy, .done => some (s.spawn (.locationUserId k startedBy))
  | .locationUserId k startedBy, .done => some <|
      s.spawn (.locationStore k startedBy (functionUserId s.prefs))
  | .locationStore k startedBy uid, .done =>
      let id := s.docId uid
      let d := (s.profile id).getD DocStore.emptyDoc
      -- the write is not awaited: the function returns at once
      some <| (((s.document uid).issue
          ⟨.location id, locationFields s.global, none, none⟩ startedBy).emit
        (.located id (field d "userAddress") (field d "userLatitude")
          (field d "userLongitude"))).spawnAll (k.map (.locationDone · startedBy)).toList
  | .locationDone k _, .done => some <| s.withContext k (·.pushReplacement .dashBoard)
  -- `lib/Screens/showAddress.dart`
  | .readData k, .done => some <|
      (s.setState debug k id).display k (.greeting s.prefs.userName)
  -- `lib/Screens/custom_map.dart`
  | .geocode k p, .placemarks ps => some <|
      (s.emit (.placemarks p ps)).setState debug k (CustomMap.onPlacemarks p ps)
  | .tap labor startedBy, .done =>
      let currentUserId := s.prefs.currentUserId
      some <| match labor.key with
        | some key => s.issue ⟨.laborRequest key, laborRequestFields labor,
            some (.tapHeader key startedBy currentUserId),
            some (.tapHeader key startedBy currentUserId)⟩ startedBy
        | none => s
  -- `whenComplete` runs after an error as well
  | .tapHeader key startedBy uid, .done => some <|
      (s.document uid).spawn (.tapProfile key startedBy uid)
  | .tapProfile key startedBy uid, .done => some <|
      match uid.bind fun u => (s.profile (.name u)).map fun d => (u, d) with
      | some (u, d) => s.issue ⟨.fromUser key (.name u), fromUserFields d, none, none⟩ startedBy
      | none => s
  -- `lib/Screens/sideMenu.dart`
  | .drawerImage k startedBy, .done =>
      let s' := (s.setImage debug k true).display k (.picture s.global.userImage)
      some (if s.isMounted k then s'.spawn (.drawerUpload k startedBy) else s')
  -- `uploadPic` throws without an image
  | .drawerImage k _, .cancelled => some <|
      (s.setImage debug k false).display k (.picture s.global.userImage)
  | .drawerUpload k startedBy, .url u => some <|
      ((s.spawn (.picUser u startedBy)).setState debug k
        ({ · with userImage := some u })).display k (.picture (some u))
  -- `UserServices.updateProfilePic`
  | .picUser u startedBy, .done => some <|
      if s.auth.isSome then s.spawn (.picUpdate u startedBy) else s
  | .picUpdate u startedBy, .done => some (s.spawn (.picUpdated u startedBy))
  | .picUpdated u startedBy, .done => some <| match s.auth with
      | some uid => s.spawn (.picQuery u uid startedBy)
      | none => s
  | .picQuery u uid startedBy, .done => some <|
      match (DocStore.query s.store [.name "Users_Info"] "uid" (.str uid)).head? with
      | some p => s.issue
          ⟨.picture (p.getLast?.getD (.name "")), pictureFields u, none, none⟩ startedBy
      | none => s
  -- `lib/Animation_method/delay_animation.dart`
  | .animation k, .done => some <|
      if s.isMounted k then s else s.emit (.forwardAfterDispose k)
  | _, _ => none

/-- Guard of the actions that a page on top of the stack offers. -/
def onTop (s : App) (sc : Screen) (f : ℕ → App) : Option App :=
  match s.stack with
  | [] => none
  | e :: _ => if e.screen = sc then some (f e.key) else none

/-- `UserProfile`, Continue: both tasks are started; without a picture `uploadPic` throws. -/
@[simps!]
def continueProfile (s : App) (k : ℕ) : App :=
  s.spawnAll (.validityState k :: if k ∈ s.images then [.uploadPic k s.auth] else [])

def position (s : App) (k : ℕ) (p : Position) : Option App :=
  match s.mounted.find? (·.key = k) with
  | some ⟨.userLocation, _⟩ => some ((s.emit (.position p)).setGlobal (UserLocation.onPosition p))
  | some ⟨.customMap, _⟩ => some ((s.emit (.position p)).spawn (.geocode k p))
  | _ => none

end App

/-- One step of the app. -/
def step (debug : Bool) (s : App) : Action → Option App
  -- back on the last route leaves the app; it is started again by `relaunch`
  | .back => if 2 ≤ s.stack.length then some s.pop else none
  | .relaunch => some s.relaunch
  | .dispose k =>
    if k ∈ s.stack.map (·.key) then none else some (s.dispose k)
  | .buildAnimation => s.onTop .signIn fun _ => s.create .delayedAnimation
  | .openEnterNumber => s.onTop .signIn fun _ => s.push .enterNumber
  | .facebookSignIn => s.onTop .signIn fun k => s.spawn (.facebookLogIn k)
  | .continuePhone => s.onTop .enterNumber fun k => s.spawn (.verifyPhone k)
  | .doneOTP =>
    match s.stack with
    | ⟨.smsOTPDialog k, d⟩ :: _ => some (s.spawn (.doneUser k d))
    | _ => none
  | .pickProfileImage => s.onTop .userProfile fun k => s.spawn (.profileImage k)
  | .continueProfile => s.onTop .userProfile s.continueProfile
  | .continueLocation => s.onTop .userLocation fun k => s.spawn (.locationPrefs (some k) s.auth)
  | .openMap => s.onTop .dashBoard fun _ => s.push .userMap
  | .openDrawer => s.onTop .dashBoard fun _ =>
      (s.create .sideMenu).emit (.picture s.global.userImage)
  | .pickDrawerImage k =>
    if ⟨.sideMenu, k⟩ ∈ s.mounted then s.onTop .dashBoard fun _ => s.spawn (.drawerImage k s.auth)
    else none
  | .signOut => s.onTop .dashBoard fun _ => { s with auth := none }.pushAndRemoveAll .signIn
  | .showCustomMap => s.onTop .userMap fun _ => s.create .customMap
  | .proceed => s.onTop .userMap fun _ => s.spawn (.locationPrefs none s.auth)
  | .tapMarker labor => s.onTop .userMap fun _ => s.spawn (.tap labor s.auth)
  | .position k p => s.position k p
  | .resume i r =>
    match s.tasks[i]? with
    | some t => App.resume debug (s.dequeue i) t r
    | none => none
  | .commit j =>
    match s.pending[j]? with
    | some w =>
      if w.site.accepted s.store then some ((s.answer j).commit w)
      else none
    | none => none
  | .reject j =>
    match s.pending[j]? with
    | some w => some ((s.answer j).spawnAll w.onError.toList)
    | none => none

end Mazdoor
