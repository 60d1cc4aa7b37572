/-
  The Cloud Functions (`functions/index.js`).

  Each handler runs when a document is created.  Its variables are undeclared,
  hence properties of the global object of the process, which a warm process
  keeps from one invocation to the next.

  * `notifyUser` and `notifyLabor` are two uses of one welcome message;
    `sendRequestToLabor` reads a variable `user` that no code assigns;
  * `Creation.expected` is the call that an event should lead to: the token of
    its own addressee, and a payload from its own name and phone;
  * `expected_iff_no_request`: a warm process makes the expected calls if and
    only if no request is created.
-/
import Mazdoor.Lib.Script
import Mazdoor.Data

namespace Mazdoor

open Script

/-! ## Values and messages -/

/-- A value of a document's field: `none` is JavaScript's undefined. -/
abbrev Value : Type := Option Val

/-- The variables of the handlers that are not declared. -/
inductive Ident where
  | userToken
  | userName
  | userPhone
  | laborToken
  | laborName
  | laborPhone
  | user
  deriving DecidableEq

/-- The payload of a message: its `notification` and its `data`. -/
structure Payload where
  title : String
  body : String
  sound : String
  sendername : String
  message : String
  deriving DecidableEq

/-- The creation of a document that triggers a handler. -/
inductive Creation where
  | usersInfo (userInfo : Doc)
  | laborsInfo (laborInfo : Doc)
  /-- a marker tap's request, made from a profile; `parent` is the document of
      `Labor_Requests` above it -/
  | fromUser (parent profile : Doc)

def Creation.isRequest : Creation → Bool
  | .fromUser _ _ => true
  | _ => false

section
/-! ## Handlers -/

-- the language's conversion of a number to a string
variable (numberToString : ℚ → String)

/-- The language's conversion of an operand of a string concatenation. -/
def toText : Value → String
  | none => "undefined"
  | some .null => "null"
  | some (.str s) => s
  -- JavaScript has one type of numbers
  | some (.int n) => numberToString n
  | some (.double q) => numberToString q

/-- The message to a new user or labor. -/
def welcome (name phone : Value) (through : String) : Payload where
  title := "Wellcome " ++ toText numberToString name
  body := through ++ toText numberToString phone
  sound := "default"
  sendername := "Wellcome " ++ toText numberToString name
  message := through ++ toText numberToString phone

/-- The message to a labor about a request. -/
def requestPayload (name phone : Value) : Payload where
  title := toText numberToString name ++ " Send request"
  body := toText numberToString phone ++ " call him for more Info"
  sound := "default"
  sendername := toText numberToString name ++ "send request"
  message := "heloo"

/-- A property of a value: null and undefined have none, and strings and numbers
    have none of the names that the handlers use. -/
def property : Value → Code Ident Value (Value × Payload) Value
  | none | some .null => throw .typeError
  | some (.str _) | some (.int _) | some (.double _) => return none

/-- A handler of the Cloud Functions. -/
abbrev Handler : Type := Code Ident Value (Value × Payload) Unit

/-- A handler that welcomes the account of a new document: `token`, `name` and
    `phone` are its variables, with the fields that they are read from. -/
def notify (token name phone : Ident) (tokenField nameField phoneField through : String)
    (info : Doc) : Handler := do
  assign token (info tokenField)
  assign name (info nameField)
  assign phone (info phoneField)
  let payload := welcome numberToString (← read name) (← read phone) through
  call (← read token, payload)

def notifyUser : Doc → Handler :=
  notify numberToString .userToken .userName .userPhone "userToken" "userName" "userPhoneNumber"
    "You are login through"

def notifyLabor : Doc → Handler :=
  notify numberToString .laborToken .laborName .laborPhone "laborToken" "laborName"
    "laborPhoneNumber" "You are login through "

def sendRequestToLabor (userData : Doc) : Handler := do
  assign .userName (userData "userName")
  assign .userPhone (userData "userPhone")
  -- `laborToken = user.laborToken`: nothing ever assigns `user`
  let user ← read .user
  assign .laborToken (← property user)
  let payload := requestPayload numberToString (← read .userName) (← read .userPhone)
  call (← read .laborToken, payload)

/-- The handler of an event.  A request has the fields that a marker tap writes. -/
def handle : Creation → Handler
  | .usersInfo userInfo => notifyUser numberToString userInfo
  | .laborsInfo laborInfo => notifyLabor numberToString laborInfo
  | .fromUser _ profile =>
    sendRequestToLabor numberToString (DocStore.merge DocStore.emptyDoc (fromUserFields profile))

/-- The call that an event should lead to: to its own addressee, with its own
    name and phone. -/
def Creation.expected : Creation → Value × Payload
  | .usersInfo userInfo => (userInfo "userToken",
      welcome numberToString (userInfo "userName") (userInfo "userPhoneNumber")
        "You are login through")
  | .laborsInfo laborInfo => (laborInfo "laborToken",
      welcome numberToString (laborInfo "laborName") (laborInfo "laborPhoneNumber")
        "You are login through ")
  | .fromUser parent profile => (parent "laborToken",
      requestPayload numberToString (field profile "userName") (field profile "userPhoneNumber"))

end

/-- A cold start: no variable is assigned. -/
def coldStart : Ident → Option Value := fun _ => none

/-! ## A request that is never sent -/

/-- A user with a name and a number taps the marker of a labor with a token. -/
def oneRequest : List Creation :=
  [.fromUser (DocStore.merge DocStore.emptyDoc [("laborToken", .str "t")])
    (DocStore.merge DocStore.emptyDoc
      [("userName", .str "Ahmad"), ("userPhoneNumber", .str "03001234567")])]

/-- **The claimed delivery fails**: the request makes no call.  (No field of
    these documents is a number.) -/
theorem request_unsent :
    serve (handle fun q => toString q.num) coldStart oneRequest ≠
      oneRequest.map fun e => [e.expected fun q => toString q.num] := by
  intro h
  cases congrArg (·.map List.length) h

/-! ## The invariant -/

section
variable {numberToString : ℚ → String} {g : Ident → Option Value}

/-- The variables that a welcome handler leaves. -/
def welcomed (g : Ident → Option Value) (token name phone : Ident) (t n p : Value) :
    Ident → Option Value :=
  Function.update (Function.update (Function.update g token (some t)) name (some n)) phone (some p)

/-- A welcome handler calls once, with the values that it has just assigned,
    whatever the environment was. -/
theorem invoke_notify {token name phone : Ident} (hn : token ≠ name) (hp : token ≠ phone)
    (hnp : name ≠ phone) (tokenField nameField phoneField through : String) (info : Doc) :
    invoke (notify numberToString token name phone tokenField nameField phoneField through info) g =
      (welcomed g token name phone (info tokenField) (info nameField) (info phoneField),
        [(info tokenField, welcome numberToString (info nameField) (info phoneField) through)]) := by
  have htoken : welcomed g token name phone (info tokenField) (info nameField) (info phoneField)
      token = some (info tokenField) := by
    rw [welcomed, Function.update_of_ne hp, Function.update_of_ne hn, Function.update_self]
  have hname : welcomed g token name phone (info tokenField) (info nameField) (info phoneField)
      name = some (info nameField) := by
    rw [welcomed, Function.update_of_ne hnp, Function.update_self]
  have hphone : welcomed g token name phone (info tokenField) (info nameField) (info phoneField)
      phone = some (info phoneField) := by
    rw [welcomed, Function.update_self]
  unfold welcomed at htoken hname hphone ⊢
  rw [invoke, notify, exec_bind_ok (exec_assign _ _), exec_bind_ok (exec_assign _ _),
    exec_bind_ok (exec_assign _ _), exec_bind_ok (exec_read hname), exec_bind_ok (exec_read hphone),
    exec_bind_ok (exec_read htoken), exec_call]
  rfl

theorem invoke_notifyUser (userInfo : Doc) :
    invoke (notifyUser numberToString userInfo) g =
      (welcomed g .userToken .userName .userPhone (userInfo "userToken") (userInfo "userName")
        (userInfo "userPhoneNumber"), [Creation.expected numberToString (.usersInfo userInfo)]) :=
  invoke_notify (by decide) (by decide) (by decide) _ _ _ _ _

theorem invoke_notifyLabor (laborInfo : Doc) :
    invoke (notifyLabor numberToString laborInfo) g =
      (welcomed g .laborToken .laborName .laborPhone (laborInfo "laborToken")
        (laborInfo "laborName") (laborInfo "laborPhoneNumber"),
        [Creation.expected numberToString (.laborsInfo laborInfo)]) :=
  invoke_notify (by decide) (by decide) (by decide) _ _ _ _ _

/-- `sendRequestToLabor` never calls: it ends at the read of `user`, after it has
    overwritten `userName` and `userPhone`. -/
theorem invoke_sendRequestToLabor (hg : g .user = none) (userData : Doc) :
    invoke (sendRequestToLabor numberToString userData) g =
      (Function.update (Function.update g .userName (some (userData "userName"))) .userPhone
        (some (userData "userPhone")), []) := by
  have huser : Function.update (Function.update g .userName (some (userData "userName")))
      .userPhone (some (userData "userPhone")) .user = none := by
    rw [Function.update_of_ne (by decide), Function.update_of_ne (by decide), hg]
  rw [invoke, sendRequestToLabor, exec_bind_ok (exec_assign _ _), exec_bind_ok (exec_assign _ _),
    exec_bind_error (exec_read_error huser)]

/-- No handler assigns `user`. -/
theorem handle_user (hg : g .user = none) (e : Creation) :
    (invoke (handle numberToString e) g).1 .user = none := by
  cases e with
  | usersInfo userInfo =>
    rw [handle, invoke_notifyUser, welcomed]
    simpa using hg
  | laborsInfo laborInfo =>
    rw [handle, invoke_notifyLabor, welcomed]
    simpa using hg
  | fromUser parent profile =>
    rw [handle, invoke_sendRequestToLabor hg]
    simpa using hg

/-- One invocation makes the expected call unless it handles a request. -/
theorem handle_calls (hg : g .user = none) (e : Creation) :
    (invoke (handle numberToString e) g).2 = [e.expected numberToString] ↔
      e.isRequest = false := by
  cases e with
  | usersInfo userInfo =>
    rw [handle, invoke_notifyUser]
    exact iff_of_true rfl rfl
  | laborsInfo laborInfo =>
    rw [handle, invoke_notifyLabor]
    exact iff_of_true rfl rfl
  | fromUser parent profile =>
    rw [handle, invoke_sendRequestToLabor hg]
    exact iff_of_false nofun nofun

end

/-- **Messages of a warm process.**  Whatever its variables hold, unless one is
    `user`, every event of a history makes its one expected call if and only if no
    request is among the events. -/
theorem expected_iff_no_request (numberToString : ℚ → String) {g : Ident → Option Value}
    (hg : g .user = none) (es : List Creation) :
    serve (handle numberToString) g es = es.map (fun e => [e.expected numberToString]) ↔
      ∀ e ∈ es, e.isRequest = false :=
  serve_eq_map_iff (fun _ e hg => handle_user hg e) (fun _ e hg => handle_calls hg e) hg es

/-- A user and a labor, whose documents come after the request. -/
def twoAccounts : List Creation :=
  [.usersInfo (DocStore.merge DocStore.emptyDoc [("userToken", .str "v")]),
    .laborsInfo (DocStore.merge DocStore.emptyDoc [("laborToken", .str "t")])]

theorem twoAccounts_expected :
    ∃ g : Ident → Option Value, g .userName = some (some (.str "Ahmad")) ∧
      serve (handle fun q => toString q.num) g twoAccounts =
        twoAccounts.map fun e => [e.expected fun q => toString q.num] :=
  ⟨Function.update coldStart .userName (some (some (.str "Ahmad"))), by decide,
    (expected_iff_no_request _ (by decide) twoAccounts).2 (by decide)⟩

end Mazdoor
