/-
  Account isolation across a sign-out: two runs on one device that differ in the
  personal data of the account that used it first.

  `signOut` ends the Firebase session and nothing else.  The name in the
  preferences, the globals and the continuations of the first account stay, and
  a returning account's sign-in overwrites none of them.

  * `Action.Alike`: two actions that differ in names, phone numbers, picture URLs
    or positions, where they are not own;
  * `Own` tracks, along a run, which of the personal data the device holds are
    equal in both runs because they were put there by equal actions, and which
    continuations were started by the first account and may be answered
    differently after its sign-out;
  * `greeted_by_another_name`: a returning account sees the first one's name;
  * `IsoCond` asks that a step shows or writes only own data; `Alike` relates
    the states of the two runs, and `isolated_of_isoCond` is the run theorem.
-/
import Mazdoor.Lib.Ghost
import Mazdoor.Lib.Labelled
import Mazdoor.Frame

namespace Mazdoor

open Transition

/-! ## Personal data -/

/-- What a screen shows from the app's state, and what is handed to Firestore. -/
def Event.isOutput : Event → Bool
  | .issued .. | .greeting _ | .picture _ => true
  | _ => false

/-- What the app shows and writes in the part of a run after the state `s`. -/
def App.outputsSince (s t : App) : List Event := (t.log.drop s.log.length).filter Event.isOutput

/-- The replies that carry personal data. -/
def Reply.isPersonal : Reply → Bool
  | .form .. | .url _ | .placemarks _ => true
  | _ => false

/-- Two replies that may differ in personal data, but not if they are `own`. -/
inductive Reply.Alike (own : Bool) : Reply → Reply → Prop where
  | same (r : Reply) (h : r.isPersonal = false) : Alike own r r
  | form {name phone name' phone' : String} (hv : validate name phone = validate name' phone')
      (h : own = true → name = name' ∧ phone = phone') :
      Alike own (.form name phone) (.form name' phone')
  | url {u u' : String} (h : own = true → u = u') : Alike own (.url u) (.url u')
  | placemarks {ps ps' : List Placemark} (hp : ps = [] ↔ ps' = []) (h : own = true → ps = ps') :
      Alike own (.placemarks ps) (.placemarks ps')

/-- Two actions that may differ in personal data: in the positions unless `fresh`,
    and in the reply to a continuation that is not own. -/
inductive Action.Alike (fresh : Bool) (owns : ℕ → Bool) : Action → Action → Prop where
  | resume (i : ℕ) {r r' : Reply} (h : r.Alike (owns i) r') :
      Alike fresh owns (.resume i r) (.resume i r')
  | position (k : ℕ) {p p' : Position} (h : fresh = true → p = p') :
      Alike fresh owns (.position k p) (.position k p')
  | same (a : Action) (h : ∀ i r k p, a ≠ .resume i r ∧ a ≠ .position k p) : Alike fresh owns a a

theorem Reply.Alike.refl (own : Bool) (r : Reply) : r.Alike own r := by
  cases r with
  | form name phone => exact .form rfl fun _ => ⟨rfl, rfl⟩
  | url u => exact .url fun _ => rfl
  | placemarks ps => exact .placemarks Iff.rfl fun _ => rfl
  | _ => exact .same _ rfl

theorem Action.Alike.refl (fresh : Bool) (owns : ℕ → Bool) (a : Action) : a.Alike fresh owns a := by
  cases a with
  | resume i r => exact .resume i (.refl _ r)
  | position k p => exact .position k fun _ => rfl
  | _ => exact .same _ fun _ _ _ _ => ⟨nofun, nofun⟩

/-- Two sessions that may differ in all personal data. -/
abbrev SessionsAlike : List Action → List Action → Prop :=
  List.Forall₂ (Action.Alike false fun _ => false)

/-! ## A name that stays -/

/-- `A` registers by Facebook under a name, reaches `DashBoard` and opens the drawer. -/
def sessionOf (name : String) : List Action :=
  [.resume 0 .done, .facebookSignIn, .resume 0 .done, .resume 0 (.credential "A"), .resume 0 .done,
    .pickProfileImage, .resume 0 .done, .continueProfile, .resume 0 (.form name "03001234567"),
    .resume 0 (.url "u"), .resume 0 .done, .commit 0, .resume 0 .done, .resume 0 .done,
    .continueLocation, .resume 0 .done, .resume 0 .done, .resume 0 .done, .resume 0 .done,
    .openDrawer]

/-- `A` signs out, and the returning account `B` signs in by Facebook. -/
def returningAfter : List Action :=
  [.signOut, .facebookSignIn, .resume 0 .done, .resume 0 (.credential "B"), .resume 0 .done,
    .resume 0 .done]

theorem sessionOf_alike : SessionsAlike (sessionOf "Ahmad") (sessionOf "Bilal") := by
  unfold sessionOf
  repeat' first
    | exact .nil
    | refine .cons (.refl _ _ _) ?_
    | refine .cons (.resume 0 (.form (by decide) nofun)) ?_

/-- **The claimed isolation fails**: `B` is greeted by the name of `A`. -/
theorem greeted_by_another_name :
    SessionsAlike (sessionOf "Ahmad") (sessionOf "Bilal") ∧
    ∃ s₁ s₂ t₁ t₂, run (step false) (App.launch ["B"] ∅) (sessionOf "Ahmad") = some s₁ ∧
      run (step false) (App.launch ["B"] ∅) (sessionOf "Bilal") = some s₂ ∧
      run (step false) s₁ returningAfter = some t₁ ∧ run (step false) s₂ returningAfter = some t₂ ∧
      s₁.outputsSince t₁ = [.greeting "Ahmad"] ∧ s₂.outputsSince t₂ = [.greeting "Bilal"] ∧
      s₁.outputsSince t₁ ≠ s₂.outputsSince t₂ := by
  refine ⟨sessionOf_alike, _, _, _, _, rfl, rfl, rfl, rfl, ?_, ?_, ?_⟩ <;> decide

/-! ## Whose data the device holds -/

/-- What is equal in both runs, because equal actions put it there: the globals
    and the stored name, by a flag each; the continuations, by a flag for each
    that says whether what it carries and is answered is equal; and what a request
    reads of the profiles, but for those listed. -/
structure Own where
  userName : Bool := true
  userPhoneNumber : Bool := true
  userImage : Bool := true
  location : Bool := true
  storedName : Bool := true
  tasks : List Bool := [true]
  profiles : List Seg := []

/-- The continuation `i` is own. -/
def Own.owns (fresh : Bool) (o : Own) (i : ℕ) : Bool := fresh && o.tasks[i]?.getD false

/-- A profile to which a name or a number is written that is not own. -/
def Own.write (o : Own) (own : Bool) (id : Seg) : Own :=
  if own then o else { o with profiles := id :: o.profiles }

def Own.dequeue (o : Own) (i : ℕ) : Own := { o with tasks := o.tasks.eraseIdx i }

/-- The continuations that a step has started are as its data. -/
def Own.started (own : Bool) (o : Own) (s : App) : Own :=
  { o with tasks := o.tasks ++ List.replicate (s.tasks.length - o.tasks.length) own }

/-- The ownership after a task continues; `own` is the task's. -/
def Own.resume (own debug : Bool) (o : Own) (s : App) : Task → Reply → Own
  | .validityState k, .form name phone =>
    if s.isMounted k ∧ validate name phone then
      { o with userName := own, userPhoneNumber := own, storedName := own }
    else o
  | .uploadPic k _, .url _ | .drawerUpload k _, .url _ =>
    if s.assigns debug k then { o with userImage := own } else o
  | .geocode k _, .placemarks ps =>
    if s.assigns debug k ∧ ps ≠ [] then { o with location := own } else o
  | .addPhoneNumber _ _, .done =>
    o.write (o.userName && o.userPhoneNumber) (s.docId s.prefs.currentUserId)
  | _, _ => o

/-- The ownership after a step from `s` to `s'`; if not `fresh`, the step belongs
    to the session that differs. -/
def Own.step (fresh debug : Bool) (s s' : App) (a : Action) (o : Own) : Own :=
  match a with
  | .relaunch =>
    Own.started fresh { o with
      userName := true, userPhoneNumber := true, userImage := true, location := true,
      tasks := [] } s'
  | .resume i r =>
    match s.tasks[i]? with
    | some t => Own.started (o.owns fresh i) ((o.dequeue i).resume (o.owns fresh i) debug s t r) s'
    | none => o
  | .position k _ =>
    match s.mounted.find? (·.key = k) with
    | some ⟨.userLocation, _⟩ => Own.started fresh { o with location := fresh } s'
    | _ => o.started fresh s'
  | _ => o.started fresh s'

/-- The ownership after a run. -/
def Own.after (fresh debug : Bool) : App → Own → List Action → Own :=
  ghostAfter (Mazdoor.step debug) (Own.step fresh debug)

/-- A step of the app together with the ownership. -/
def track (fresh debug : Bool) : App × Own → Action → Option (App × Own) :=
  withGhost (step debug) (Own.step fresh debug)

/-- Actions of two runs, of which the first is tracked: the replies to what is not
    own may differ. -/
def ActionsAlike (fresh : Bool) (x : App × Own) : Action → Action → Prop :=
  Action.Alike fresh (x.2.owns fresh)

/-! ## The condition -/

/-- A continuation shows and writes own data only. -/
def Task.isoCond (own : Bool) (o : Own) (s : App) : Task → Reply → Prop
  | .readData k, .done => s.isMounted k → o.storedName
  | .drawerImage k _, .done | .drawerImage k _, .cancelled => s.isMounted k → o.userImage
  | .drawerUpload k _, .url _ => s.isMounted k → own
  | .addPhoneNumber _ _, .done => o.userName ∧ o.userPhoneNumber ∧ o.userImage
  | .locationStore _ _ _, .done => o.location
  | .tapProfile _ _ uid, .done => ∀ u ∈ uid, (s.profile (.name u)).isSome → .name u ∉ o.profiles
  | .picQuery _ uid _, .done =>
    (DocStore.query s.store [.name "Users_Info"] "uid" (.str uid)).head?.isSome → own
  | _, _ => True

/-- The condition of a step. -/
def IsoCond (x : App × Own) : Action → Prop
  | .openDrawer => x.2.userImage
  | .resume i r => ∀ t ∈ x.1.tasks[i]?, t.isoCond (x.2.owns true i) x.2 x.1 r
  | _ => True

instance (own : Bool) (o : Own) (s : App) (t : Task) (r : Reply) :
    Decidable (t.isoCond own o s r) := by
  induction t using Task.casesOn <;> induction r using Reply.casesOn <;>
    dsimp only [Task.isoCond] <;> infer_instance

instance (x : App × Own) (a : Action) : Decidable (IsoCond x a) := by
  induction a using Action.casesOn <;> dsimp only [IsoCond] <;> infer_instance

/-! ## The two runs side by side -/

/-- Globals that agree on what is own. -/
structure Globals.Alike (o : Own) (g₁ g₂ : Globals) : Prop where
  userId : g₁.userId = g₂.userId
  userToken : g₁.userToken = g₂.userToken
  userName : o.userName = true → g₁.userName = g₂.userName
  userPhoneNumber : o.userPhoneNumber = true → g₁.userPhoneNumber = g₂.userPhoneNumber
  userImage : o.userImage = true → g₁.userImage = g₂.userImage
  location : o.location = true → g₁.userAddress = g₂.userAddress ∧
    g₁.userLatitude = g₂.userLatitude ∧ g₁.userLongitude = g₂.userLongitude

/-- The tasks that carry personal data. -/
def Task.isPersonal : Task → Bool
  | .geocode .. | .picUser .. | .picUpdate .. | .picUpdated .. | .picQuery .. => true
  | _ => false

/-- Two tasks that may differ in personal data, but not if they are `own`. -/
inductive Task.Alike (own : Bool) : Task → Task → Prop where
  | same (t : Task) (h : t.isPersonal = false) : Alike own t t
  | geocode {k : ℕ} {p p' : Position} (h : own = true → p = p') :
      Alike own (.geocode k p) (.geocode k p')
  | picUser {u u' : String} {who : Option Uid} (h : own = true → u = u') :
      Alike own (.picUser u who) (.picUser u' who)
  | picUpdate {u u' : String} {who : Option Uid} (h : own = true → u = u') :
      Alike own (.picUpdate u who) (.picUpdate u' who)
  | picUpdated {u u' : String} {who : Option Uid} (h : own = true → u = u') :
      Alike own (.picUpdated u who) (.picUpdated u' who)
  | picQuery {u u' : String} {uid : Uid} {who : Option Uid} (h : own = true → u = u') :
      Alike own (.picQuery u uid who) (.picQuery u' uid who)

/-- The fields of a profile that a request reads. -/
def requestKeys : List String := ["userName", "userPhoneNumber", "userToken"]

/-- Two writes that do the same to what a request reads, but for the profiles in `L`. -/
structure Write.Alike (L : List Seg) (w₁ w₂ : Write) : Prop where
  site : w₁.site = w₂.site
  onDone : w₁.onDone = w₂.onDone
  onError : w₁.onError = w₂.onError
  fields : ∀ id, w₁.site.user = some id → id ∉ L → ∀ k ∈ requestKeys, ∀ d₁ d₂ : Doc, d₁ k = d₂ k →
    DocStore.merge d₁ w₁.fields k = DocStore.merge d₂ w₂.fields k
  uid : "uid" ∉ w₁.fields.map Prod.fst ∧ "uid" ∉ w₂.fields.map Prod.fst
  callbacks : ∀ t ∈ w₁.onDone.toList ++ w₁.onError.toList, t.isPersonal = false

/-- What was shown and written since the logs `l`, if `fresh`. -/
def SameOutputs (fresh : Bool) (l : List Event × List Event) (l₁ l₂ : List Event) : Prop :=
  fresh = true → ∃ es₁ es₂, l₁ = l.1 ++ es₁ ∧ l₂ = l.2 ++ es₂ ∧
    es₁.filter Event.isOutput = es₂.filter Event.isOutput

/-- The states of the two runs, in a step whose new continuations are `own`. -/
structure Alike (fresh own : Bool) (l : List Event × List Event) (o : Own) (s₁ s₂ : App) :
    Prop where
  auth : s₁.auth = s₂.auth
  accounts : s₁.accounts = s₂.accounts
  currentUserId : s₁.prefs.currentUserId = s₂.prefs.currentUserId
  storedName : o.storedName = true → s₁.prefs.userName = s₂.prefs.userName
  global : s₁.global.Alike o s₂.global
  stack : s₁.stack = s₂.stack
  mounted : s₁.mounted = s₂.mounted
  nextKey : s₁.nextKey = s₂.nextKey
  images : s₁.images = s₂.images
  tasks : ∃ n, Labelled Task.Alike (o.tasks ++ List.replicate n own) s₁.tasks s₂.tasks
  keys : s₁.store.keys = s₂.store.keys
  profile : ∀ id ∉ o.profiles, ∀ k ∈ requestKeys,
    (s₁.profile id).bind (· k) = (s₂.profile id).bind (· k)
  uid : ∀ id, (s₁.profile id).bind (· "uid") = (s₂.profile id).bind (· "uid")
  pending : List.Forall₂ (Write.Alike o.profiles) s₁.pending s₂.pending
  nextAuto : s₁.nextAuto = s₂.nextAuto
  log : SameOutputs fresh l s₁.log s₂.log

section
variable {fresh own own' debug : Bool} {l : List Event × List Event} {o o' : Own}
  {s₁ s₂ s₁' : App} {k : ℕ}

theorem SameOutputs.append {l₁ l₂ es₁ es₂ : List Event} (h : SameOutputs fresh l l₁ l₂)
    (he : fresh = true → es₁.filter Event.isOutput = es₂.filter Event.isOutput) :
    SameOutputs fresh l (l₁ ++ es₁) (l₂ ++ es₂) := by
  intro hf
  obtain ⟨ds₁, ds₂, rfl, rfl, hd⟩ := h hf
  refine ⟨ds₁ ++ es₁, ds₂ ++ es₂, List.append_assoc .., List.append_assoc .., ?_⟩
  rw [List.filter_append, List.filter_append, hd, he hf]

theorem Task.Alike.imp {t₁ t₂ : Task} (ho : own' = true → own = true) (h : t₁.Alike own t₂) :
    t₁.Alike own' t₂ := by
  cases h with
  | same _ h => exact .same _ h
  | geocode h => exact .geocode fun h' => h (ho h')
  | picUser h => exact .picUser fun h' => h (ho h')
  | picUpdate h => exact .picUpdate fun h' => h (ho h')
  | picUpdated h => exact .picUpdated fun h' => h (ho h')
  | picQuery h => exact .picQuery fun h' => h (ho h')

theorem Write.Alike.mono {L L' : List Seg} {w₁ w₂ : Write} (hL : L ⊆ L') (h : w₁.Alike L w₂) :
    w₁.Alike L' w₂ :=
  { h with fields := fun id hs hn => h.fields id hs fun hm => hn (hL hm) }

theorem Write.alike_of_fields {L : List Seg} {site : Site} {fs₁ fs₂ : Fields}
    {onDone onError : Option Task} (hf : ∀ id, site.user = some id → id ∉ L → ∀ k ∈ requestKeys,
      ∀ d₁ d₂ : Doc, d₁ k = d₂ k → DocStore.merge d₁ fs₁ k = DocStore.merge d₂ fs₂ k)
    (h₁ : "uid" ∉ fs₁.map Prod.fst) (h₂ : "uid" ∉ fs₂.map Prod.fst)
    (ht : ∀ t ∈ onDone.toList ++ onError.toList, t.isPersonal = false) :
    Write.Alike L ⟨site, fs₁, onDone, onError⟩ ⟨site, fs₂, onDone, onError⟩ :=
  ⟨rfl, rfl, rfl, hf, ⟨h₁, h₂⟩, ht⟩

theorem Globals.Alike.registrationFields {g₁ g₂ : Globals} (h : g₁.Alike o g₂)
    (hn : o.userName = true) (hp : o.userPhoneNumber = true) (hi : o.userImage = true) :
    registrationFields g₁ = registrationFields g₂ := by
  simp only [Mazdoor.registrationFields, h.userName hn, h.userPhoneNumber hp, h.userImage hi,
    h.userId, h.userToken]

theorem Globals.Alike.locationFields {g₁ g₂ : Globals} (h : g₁.Alike o g₂)
    (hl : o.location = true) : locationFields g₁ = locationFields g₂ := by
  obtain ⟨ha, hlat, hlng⟩ := h.location hl
  simp only [Mazdoor.locationFields, ha, hlat, hlng]

/-- A profile that is not listed after a write was written with own data. -/
theorem Own.own_of_notMem {own : Bool} {id : Seg} (h : id ∉ (o.write own id).profiles) :
    own = true := by
  cases own with
  | true => rfl
  | false => exact absurd List.mem_cons_self h

/-- Own names and numbers give own profiles, as far as a request reads them. -/
theorem Globals.Alike.merge_registrationFields {g₁ g₂ : Globals} (h : g₁.Alike o g₂)
    (hn : o.userName = true) (hp : o.userPhoneNumber = true) (k : String) (hk : k ∈ requestKeys)
    (d₁ d₂ : Doc) : DocStore.merge d₁ (Mazdoor.registrationFields g₁) k =
      DocStore.merge d₂ (Mazdoor.registrationFields g₂) k := by
  simp only [requestKeys, List.mem_cons, List.not_mem_nil, or_false] at hk
  rcases hk with rfl | rfl | rfl
  · exact congrArg (fun x => some (Val.ofString x)) (h.userName hn)
  · exact congrArg (fun x => some (Val.ofString x)) (h.userPhoneNumber hp)
  · exact congrArg (fun x => some (Val.ofString x)) h.userToken

theorem notMem_locationFields (g : Globals) :
    ∀ k ∈ requestKeys, k ∉ (locationFields g).map Prod.fst := by
  simp [requestKeys, locationFields]

theorem notMem_pictureFields (u : String) :
    ∀ k ∈ requestKeys, k ∉ (pictureFields u).map Prod.fst := by
  simp [requestKeys, pictureFields]

theorem fromUserFields_congr {d₁ d₂ : Doc} (h : ∀ k ∈ requestKeys, d₁ k = d₂ k) :
    fromUserFields d₁ = fromUserFields d₂ := by
  simp only [requestKeys, List.forall_mem_cons] at h
  simp only [fromUserFields, field, h.1, h.2.1, h.2.2.1]

theorem uid_notMem_registrationFields (g : Globals) :
    "uid" ∉ (registrationFields g).map Prod.fst := by simp [registrationFields]

theorem uid_notMem_locationFields (g : Globals) : "uid" ∉ (locationFields g).map Prod.fst := by
  simp [locationFields]

/-! ### The parts of a step -/

namespace Alike

theorem isMounted (h : Alike fresh own l o s₁ s₂) (k : ℕ) : s₁.isMounted k = s₂.isMounted k := by
  rw [App.isMounted, App.isMounted, h.mounted]

theorem assigns (h : Alike fresh own l o s₁ s₂) (k : ℕ) :
    s₁.assigns debug k = s₂.assigns debug k := by
  rw [App.assigns, App.assigns, h.isMounted]

theorem docId (h : Alike fresh own l o s₁ s₂) (u : Option Uid) : s₁.docId u = s₂.docId u := by
  cases u with
  | none => exact congrArg Seg.auto h.nextAuto
  | some u => rfl

theorem append_tasks (h : Alike fresh own l o s₁ s₂) {ts : List Task}
    (hts : ∀ t ∈ ts, t.isPersonal = false) : ∃ n,
      Labelled Task.Alike (o.tasks ++ List.replicate n own) (s₁.tasks ++ ts) (s₂.tasks ++ ts) := by
  obtain ⟨n, hn⟩ := h.tasks
  refine ⟨n + ts.length, ?_⟩
  rw [List.replicate_add, ← List.append_assoc]
  exact hn.append (.replicate fun t ht => .same t (hts t ht))

theorem initTasks_isPersonal (k : ℕ) (sc : Screen) :
    ∀ t ∈ App.initTasks k sc, t.isPersonal = false := by
  intro t ht
  cases sc <;> simp [App.initTasks] at ht <;> subst ht <;> rfl

theorem spawn (h : Alike fresh own l o s₁ s₂) {t : Task} (ht : t.isPersonal = false) :
    Alike fresh own l o (s₁.spawn t) (s₂.spawn t) :=
  { h with tasks := h.append_tasks (List.forall_mem_singleton.2 ht) }

theorem spawnAll (h : Alike fresh own l o s₁ s₂) {ts : List Task}
    (hts : ∀ t ∈ ts, t.isPersonal = false) : Alike fresh own l o (s₁.spawnAll ts) (s₂.spawnAll ts) :=
  { h with tasks := h.append_tasks hts }

theorem emit (h : Alike fresh own l o s₁ s₂) {e₁ e₂ : Event}
    (he : fresh = true → [e₁].filter Event.isOutput = [e₂].filter Event.isOutput) :
    Alike fresh own l o (s₁.emit e₁) (s₂.emit e₂) := { h with log := h.log.append he }

theorem create (h : Alike fresh own l o s₁ s₂) (sc : Screen) :
    Alike fresh own l o (s₁.create sc) (s₂.create sc) :=
  { h with
    mounted := by rw [App.create_mounted, App.create_mounted, h.nextKey, h.mounted]
    nextKey := congrArg (· + 1) h.nextKey
    tasks := by
      rw [App.create_tasks, App.create_tasks, h.nextKey]
      exact h.append_tasks (initTasks_isPersonal _ _) }

theorem pop (h : Alike fresh own l o s₁ s₂) : Alike fresh own l o s₁.pop s₂.pop :=
  { h with stack := congrArg Navigator.pop h.stack }

theorem push (h : Alike fresh own l o s₁ s₂) (sc : Screen) :
    Alike fresh own l o (s₁.push sc) (s₂.push sc) :=
  { h.create sc with
    stack := by rw [App.push_stack, App.push_stack, h.nextKey, h.stack] }

theorem pushReplacement (h : Alike fresh own l o s₁ s₂) (sc : Screen) :
    Alike fresh own l o (s₁.pushReplacement sc) (s₂.pushReplacement sc) := by
  have hst := h.stack
  have hk := h.nextKey
  refine { h with stack := ?_, mounted := ?_, nextKey := ?_, tasks := ?_ }
  · simp only [App.pushReplacement_stack, hst, hk]
  · simp only [App.pushReplacement_mounted, hst, hk, h.mounted]
  · simp only [App.pushReplacement_nextKey, hst, hk]
  · simp only [App.pushReplacement_tasks, hst, hk]
    split_ifs
    · exact h.append_tasks (by simp)
    · exact h.append_tasks (initTasks_isPersonal _ _)

theorem pushAndRemoveAll (h : Alike fresh own l o s₁ s₂) (sc : Screen) :
    Alike fresh own l o (s₁.pushAndRemoveAll sc) (s₂.pushAndRemoveAll sc) :=
  { h.create sc with
    stack := by
      rw [App.pushAndRemoveAll_stack, App.pushAndRemoveAll_stack, h.nextKey, h.stack] }

theorem withContext (h : Alike fresh own l o s₁ s₂) (k : ℕ) {f : App → App}
    (hf : Alike fresh own l o (f s₁) (f s₂)) :
    Alike fresh own l o (s₁.withContext k f) (s₂.withContext k f) := by
  rw [App.withContext, App.withContext, ← h.isMounted]
  split_ifs
  · exact hf
  · exact h

theorem stateError (h : Alike fresh own l o s₁ s₂) (k : ℕ) : s₁.stateError k = s₂.stateError k := by
  rw [App.stateError, App.stateError, h.isMounted]

theorem setImage (h : Alike fresh own l o s₁ s₂) (k : ℕ) (picked : Bool) :
    Alike fresh own l o (s₁.setImage debug k picked) (s₂.setImage debug k picked) :=
  { h with
    images := by
      rw [App.setImage_images, App.setImage_images, h.assigns, h.images]
    log := h.log.append fun _ => by rw [h.stateError] }

theorem setState (h : Alike fresh own l o s₁ s₂) (k : ℕ) {f₁ f₂ : Globals → Globals}
    (ho : o'.storedName = o.storedName ∧ o'.tasks = o.tasks ∧ o'.profiles = o.profiles)
    (hg : s₁.assigns debug k → (f₁ s₁.global).Alike o' (f₂ s₂.global))
    (hg' : s₁.assigns debug k = false → s₁.global.Alike o' s₂.global) :
    Alike fresh own l o' (s₁.setState debug k f₁) (s₂.setState debug k f₂) := by
  obtain ⟨hn, ht, hp⟩ := ho
  refine { h with
    storedName := hn ▸ h.storedName
    tasks := ht ▸ h.tasks
    profile := hp ▸ h.profile
    pending := hp ▸ h.pending
    global := ?_
    log := h.log.append fun _ => by rw [h.stateError] }
  rw [App.setState_global, App.setState_global, ← h.assigns]
  split_ifs with ha
  · exact hg ha
  · exact hg' (eq_false_of_ne_true ha)

theorem display (h : Alike fresh own l o s₁ s₂) (k : ℕ) {e₁ e₂ : Event}
    (he : fresh = true → s₁.isMounted k → e₁ = e₂) :
    Alike fresh own l o (s₁.display k e₁) (s₂.display k e₂) := by
  refine { h with log := h.log.append fun hf => ?_ }
  rw [← h.isMounted]
  split_ifs with hk
  · rw [he hf hk]
  · rfl

theorem document (h : Alike fresh own l o s₁ s₂) (u : Option Uid) :
    Alike fresh own l o (s₁.document u) (s₂.document u) :=
  { h with nextAuto := by rw [App.document_nextAuto, App.document_nextAuto, h.nextAuto] }

theorem issue (h : Alike fresh own l o s₁ s₂) {w₁ w₂ : Write} (hw : w₁.Alike o.profiles w₂)
    (hf : fresh = true → w₁.fields = w₂.fields) (who : Option Uid) :
    Alike fresh own l o (s₁.issue w₁ who) (s₂.issue w₂ who) :=
  { h with
    pending := List.rel_append h.pending (.cons hw .nil)
    log := h.log.append fun h => by rw [hw.site, hf h] }

theorem authenticate (h : Alike fresh own l o s₁ s₂) (uid : Uid) :
    Alike fresh own l o (s₁.authenticate uid) (s₂.authenticate uid) :=
  { h with auth := rfl, accounts := congrArg (uid :: ·) h.accounts }

theorem setUserId (h : Alike fresh own l o s₁ s₂) (uid : Uid) :
    Alike fresh own l o (s₁.setUserId uid) (s₂.setUserId uid) :=
  { h with currentUserId := rfl, global := { h.global with userId := rfl } }

theorem mono (h : Alike fresh own l o s₁ s₂) (hg : s₁.global.Alike o' s₂.global)
    (hn : o'.storedName = true → o.storedName = true) (ht : o'.tasks = o.tasks)
    (hp : o.profiles ⊆ o'.profiles) : Alike fresh own l o' s₁ s₂ :=
  { h with
    global := hg
    storedName := fun h' => h.storedName (hn h')
    tasks := ht ▸ h.tasks
    profile := fun id hid => h.profile id fun hm => hid (hp hm)
    pending := h.pending.imp fun _ _ => .mono hp }

theorem write (h : Alike fresh own l o s₁ s₂) (c : Bool) (id : Seg) :
    Alike fresh own l (o.write c id) s₁ s₂ := by
  cases c with
  | true => exact h
  | false => exact h.mono { h.global with } (fun h => h) rfl (List.subset_cons_self ..)

/-- A task with personal data is started in both runs. -/
theorem spawn_personal (h : Alike fresh own l o s₁ s₂) {t₁ t₂ : Task} (ht : t₁.Alike own t₂) :
    Alike fresh own l o (s₁.spawn t₁) (s₂.spawn t₂) := by
  obtain ⟨n, hn⟩ := h.tasks
  refine { h with tasks := ⟨n + 1, ?_⟩ }
  rw [List.replicate_succ', ← List.append_assoc]
  exact hn.append (.cons ht .nil)

/-! ### Continuations -/

theorem resume_failed (t : Task) : App.resume debug s₁ t .failed = some s₁ := by
  cases t <;> rfl

theorem exists_of_some {x y : App} (h : Alike fresh own l o x y) (hs : some x = some s₁') :
    ∃ s₂', some y = some s₂' ∧ Alike fresh own l o s₁' s₂' := ⟨y, rfl, Option.some.inj hs ▸ h⟩

/-- A registration is written in both runs. -/
theorem addPhoneNumber (h : Alike fresh own l o s₁ s₂) (k : ℕ) (who : Option Uid)
    (hc : fresh = true → o.userName ∧ o.userPhoneNumber ∧ o.userImage) :
    Alike fresh own l (o.resume own debug s₁ (.addPhoneNumber k who) .done)
      ((s₁.document s₁.prefs.currentUserId).issue
        ⟨.registration (s₁.docId s₁.prefs.currentUserId), registrationFields s₁.global,
          some (.addPhoneNumberDone k who), none⟩ who)
      ((s₂.document s₂.prefs.currentUserId).issue
        ⟨.registration (s₂.docId s₂.prefs.currentUserId), registrationFields s₂.global,
          some (.addPhoneNumberDone k who), none⟩ who) := by
  rw [← h.currentUserId, ← h.docId]
  have h' := (h.document s₁.prefs.currentUserId).write (o.userName && o.userPhoneNumber)
    (s₁.docId s₁.prefs.currentUserId)
  refine h'.issue (Write.alike_of_fields ?_ (uid_notMem_registrationFields _)
    (uid_notMem_registrationFields _) (by simp [Task.isPersonal])) ?_ who
  · rintro id ⟨⟩ hid k hk d₁ d₂ -
    have ho := Own.own_of_notMem hid
    rw [Bool.and_eq_true] at ho
    exact h.global.merge_registrationFields ho.1 ho.2 k hk d₁ d₂
  · intro hf
    obtain ⟨hn, hp, hi⟩ := hc hf
    exact h.global.registrationFields hn hp hi

/-- A location is written in both runs. -/
theorem locationStore (h : Alike fresh own l o s₁ s₂) (who uid : Option Uid)
    (hc : fresh = true → o.location) :
    Alike fresh own l o
      ((s₁.document uid).issue ⟨.location (s₁.docId uid), locationFields s₁.global, none, none⟩ who)
      ((s₂.document uid).issue ⟨.location (s₂.docId uid), locationFields s₂.global, none, none⟩
        who) := by
  rw [← h.docId]
  refine (h.document uid).issue (Write.alike_of_fields ?_ (uid_notMem_locationFields _)
    (uid_notMem_locationFields _) (by simp)) (fun hf => h.global.locationFields (hc hf)) who
  intro id _ _ k hk d₁ d₂ hd
  have hm : ∀ g, k ∉ (locationFields g).map Prod.fst := fun g => notMem_locationFields g k hk
  rw [DocStore.merge_of_notMem (hm _), DocStore.merge_of_notMem (hm _), hd]

theorem isSome_profile (h : Alike fresh own l o s₁ s₂) (id : Seg) :
    (s₁.profile id).isSome = (s₂.profile id).isSome :=
  DocStore.isSome_lookup_congr h.keys (usersInfo id)

/-- A request is written in both runs, from the same profile. -/
theorem tapProfile (h : Alike fresh own l o s₁ s₂) (key : String) (who uid : Option Uid)
    (hc : fresh = true → (Task.tapProfile key who uid).isoCond own o s₁ .done)
    (hs : App.resume debug s₁ (.tapProfile key who uid) .done = some s₁') :
    ∃ s₂', App.resume debug s₂ (.tapProfile key who uid) .done = some s₂' ∧
      Alike fresh own l o s₁' s₂' := by
  cases uid with
  | none => exact exists_of_some h hs
  | some u =>
    have hp := h.isSome_profile (.name u)
    simp only [App.resume, Option.bind_some] at hs ⊢
    cases h₁ : s₁.profile (.name u) with
    | none =>
      have h₂ : s₂.profile (.name u) = none := by simpa [h₁] using hp
      rw [h₁] at hs
      rw [h₂]
      exact exists_of_some h hs
    | some d₁ =>
      obtain ⟨d₂, h₂⟩ := Option.isSome_iff_exists.1 (hp ▸ h₁ ▸ rfl : (s₂.profile (.name u)).isSome)
      rw [h₁] at hs
      rw [h₂]
      refine exists_of_some (h.issue (Write.alike_of_fields ?_ (by simp [fromUserFields])
        (by simp [fromUserFields]) (by simp)) (fun hf => ?_) who) hs
      · intro id hid
        cases hid
      · have hu := h.profile _ (hc hf u rfl (h₁ ▸ rfl))
        simp only [h₁, h₂, Option.bind_some] at hu
        exact fromUserFields_congr hu

theorem drawerImage (h : Alike fresh own l o s₁ s₂) (k : ℕ) (picked : Bool)
    (hc : fresh = true → s₁.isMounted k → o.userImage) :
    Alike fresh own l o ((App.setImage debug s₁ k picked).display k (.picture s₁.global.userImage))
      ((App.setImage debug s₂ k picked).display k (.picture s₂.global.userImage)) := by
  refine (h.setImage k picked).display k fun hf hk => ?_
  rw [h.global.userImage (hc hf hk)]

theorem resume_done (h : Alike fresh own l o s₁ s₂) {t : Task} (ht : t.isPersonal = false)
    (hc : fresh = true → t.isoCond own o s₁ .done) (hs : App.resume debug s₁ t .done = some s₁') :
    ∃ s₂', App.resume debug s₂ t .done = some s₂' ∧
      Alike fresh own l (o.resume own debug s₁ t .done) s₁' s₂' := by
  cases t with
  | navigatePage k =>
    refine exists_of_some (h.withContext k ?_) hs
    rw [h.auth]
    exact h.pushAndRemoveAll _
  | messagingUserId k => exact exists_of_some (h.spawn rfl) hs
  | doneUser k d => exact exists_of_some (h.auth ▸ h.spawn rfl) hs
  | done k d user =>
    cases user with
    | some u => exact exists_of_some (h.withContext d (h.pop.push _)) hs
    | none => exact exists_of_some (h.spawn rfl) hs
  | signInPrefs k => exact exists_of_some (h.spawn rfl) hs
  | signIn k uid new =>
    cases new with
    | true =>
      refine exists_of_some ?_ hs
      rw [← h.isMounted]
      split_ifs
      · exact (h.setUserId uid).pushReplacement _
      · exact h
    | false => exact exists_of_some (h.withContext k (h.pop.pushReplacement _)) hs
  | facebookLogIn k => exact exists_of_some (h.spawn rfl) hs
  | facebook k uid new =>
    cases new with
    | true =>
      have h' := h.setUserId uid
      exact exists_of_some (h'.withContext k (h'.pushReplacement _)) hs
    | false => exact exists_of_some (h.withContext k (h.pushReplacement _)) hs
  | profileImage k => exact exists_of_some (h.setImage k true) hs
  | addPhoneNumber k who => exact exists_of_some (h.addPhoneNumber k who hc) hs
  | addPhoneNumberDone k who => exact exists_of_some (h.withContext k (h.pushReplacement _)) hs
  | locationPrefs k who => exact exists_of_some (h.spawn rfl) hs
  | locationUserId k who =>
    refine exists_of_some ?_ hs
    rw [functionUserId, functionUserId, h.currentUserId]
    exact h.spawn rfl
  | locationStore k who uid =>
    refine exists_of_some (Alike.spawnAll (Alike.emit (h.locationStore who uid hc) ?_) ?_) hs
    · exact fun _ => rfl
    · intro t ht
      obtain ⟨k', -, rfl⟩ := Option.map_eq_some_iff.1 (Option.mem_toList.1 ht)
      rfl
  | locationDone k who => exact exists_of_some (h.withContext k (h.pushReplacement _)) hs
  | readData k =>
    refine exists_of_some (Alike.display (h.setState k ⟨rfl, rfl, rfl⟩ (fun _ => h.global)
      fun _ => h.global) k fun hf hk => ?_) hs
    rw [h.storedName (hc hf hk)]
  | tap labor who =>
    refine exists_of_some ?_ hs
    rw [h.currentUserId]
    cases labor.key with
    | none => exact h
    | some key =>
      refine h.issue (Write.alike_of_fields ?_ (by simp [laborRequestFields])
        (by simp [laborRequestFields]) (by simp [Task.isPersonal])) (fun _ => rfl) who
      intro id hid
      cases hid
  | tapHeader key who uid => exact exists_of_some ((h.document uid).spawn rfl) hs
  | tapProfile key who uid => exact h.tapProfile key who uid hc hs
  | drawerImage k who =>
    refine exists_of_some ?_ hs
    rw [← h.isMounted]
    split_ifs
    · exact (h.drawerImage k true hc).spawn rfl
    · exact h.drawerImage k true hc
  | animation k =>
    refine exists_of_some ?_ hs
    rw [← h.isMounted]
    split_ifs
    · exact h
    · exact h.emit fun _ => rfl
  | messagingToken k | verifyPhone k | signInCredential k | facebookCredential k | validityState k
  | uploadPic k who | drawerUpload k who => cases hs
  | _ => cases ht

/-- Two continuations without personal data in their tasks and replies. -/
theorem resume_same (h : Alike fresh own l o s₁ s₂) {t : Task} {r : Reply} (ht : t.isPersonal = false)
    (hr : r.isPersonal = false) (hf : r ≠ .failed) (hc : fresh = true → t.isoCond own o s₁ r)
    (hs : App.resume debug s₁ t r = some s₁') :
    ∃ s₂', App.resume debug s₂ t r = some s₂' ∧
      Alike fresh own l (o.resume own debug s₁ t r) s₁' s₂' := by
  cases r with
  | done => exact h.resume_done ht hc hs
  | failed => exact absurd rfl hf
  | cancelled =>
    cases t with
    | profileImage k => exact exists_of_some (h.setImage k false) hs
    | drawerImage k who => exact exists_of_some (h.drawerImage k false hc) hs
    | _ => cases hs
  | codeSent =>
    cases t with
    | verifyPhone k =>
      have h' := h.spawn (t := .verifyPhone k) rfl
      exact exists_of_some (h'.withContext k (h'.push _)) hs
    | _ => cases hs
  | verificationCompleted =>
    cases t with
    | verifyPhone k => exact exists_of_some ((h.spawn rfl).spawn rfl) hs
    | _ => cases hs
  | credential uid =>
    cases t with
    | signInCredential k | facebookCredential k =>
      refine exists_of_some ?_ hs
      rw [App.isNewUser, App.isNewUser, h.accounts]
      exact (h.authenticate uid).spawn rfl
    | _ => cases hs
  | token t' =>
    cases t with
    | messagingToken k =>
      refine exists_of_some (h.setState k ⟨rfl, rfl, rfl⟩ (fun _ => ?_) fun _ => h.global) hs
      exact { h.global with userToken := rfl }
    | _ => cases hs
  | _ => cases hr

/-- The URL of a picture arrives in both runs. -/
theorem setUserImage (h : Alike fresh own l o s₁ s₂) (k : ℕ) {u u' : String}
    (hu : own = true → u = u') :
    Alike fresh own l (if s₁.assigns debug k then { o with userImage := own } else o)
      (App.setState debug s₁ k ({ · with userImage := some u }))
      (App.setState debug s₂ k ({ · with userImage := some u' })) := by
  split_ifs with ha
  · refine h.setState k ⟨rfl, rfl, rfl⟩ (fun _ => ?_) fun hn => absurd ha (by simp [hn])
    exact { h.global with userImage := fun ho => congrArg some (hu ho) }
  · exact h.setState k ⟨rfl, rfl, rfl⟩ (fun ha' => absurd ha' ha) fun _ => h.global

/-- Two continuations that receive personal data. -/
theorem resume_reply (h : Alike fresh own l o s₁ s₂) {t : Task} {r₁ r₂ : Reply}
    (ht : t.isPersonal = false) (hr : r₁.Alike own r₂) (hp : r₁.isPersonal = true)
    (hc : fresh = true → t.isoCond own o s₁ r₁) (hs : App.resume debug s₁ t r₁ = some s₁') :
    ∃ s₂', App.resume debug s₂ t r₂ = some s₂' ∧
      Alike fresh own l (o.resume own debug s₁ t r₁) s₁' s₂' := by
  cases hr with
  | same _ hr => exact absurd hp (by simp [hr])
  | form hv he =>
    cases t with
    | validityState k =>
      refine exists_of_some ?_ hs
      dsimp only [Own.resume]
      rw [← h.isMounted, ← hv]
      split_ifs
      · exact { h with
          storedName := fun ho => congrArg some (he ho).1
          global := { h.global with
            userName := fun ho => congrArg some (he ho).1
            userPhoneNumber := fun ho => congrArg some (he ho).2 } }
      · exact h
    | _ => cases hs
  | @url u u' he =>
    cases t with
    | uploadPic k who =>
      refine exists_of_some ?_ hs
      rw [← h.isMounted]
      split_ifs
      · exact (h.setUserImage k he).spawn rfl
      · exact h.setUserImage k he
    | drawerUpload k who =>
      have h' : Alike fresh own l o (s₁.spawn (.picUser u who)) (s₂.spawn (.picUser u' who)) :=
        h.spawn_personal (.picUser he)
      refine exists_of_some ((h'.setUserImage k he).display k fun hf hk => ?_) hs
      rw [he (hc hf hk)]
    | _ => cases hs
  | placemarks hp he =>
    cases t with
    | geocode k p => cases ht
    | _ => cases hs

theorem query (h : Alike fresh own l o s₁ s₂) (v : Val) :
    DocStore.query s₁.store [.name "Users_Info"] "uid" v =
      DocStore.query s₂.store [.name "Users_Info"] "uid" v := by
  refine DocStore.query_congr h.keys (fun p hne hp => ?_) v
  have hu : p = usersInfo (p.getLast hne) :=
    (List.dropLast_append_getLast hne).symm.trans (congrArg (· ++ [p.getLast hne]) hp)
  rw [hu]
  exact h.uid _

/-- The geocoder's reply arrives in both runs. -/
theorem onPlacemarks (h : Alike fresh own l o s₁ s₂) (k : ℕ) {p p' : Position}
    {ps ps' : List Placemark} (hp : own = true → p = p') (hps : ps = [] ↔ ps' = [])
    (he : own = true → ps = ps') :
    Alike fresh own l (o.resume own debug s₁ (.geocode k p) (.placemarks ps))
      ((s₁.emit (.placemarks p ps)).setState debug k (CustomMap.onPlacemarks p ps))
      ((s₂.emit (.placemarks p' ps')).setState debug k (CustomMap.onPlacemarks p' ps')) := by
  have h' : Alike fresh own l o (s₁.emit (.placemarks p ps)) (s₂.emit (.placemarks p' ps')) :=
    h.emit fun _ => rfl
  dsimp only [Own.resume]
  cases ps with
  | nil =>
    obtain rfl := hps.1 rfl
    rw [if_neg (by simp)]
    exact h'.setState k ⟨rfl, rfl, rfl⟩ (fun _ => h.global) fun _ => h.global
  | cons first rest =>
    cases ps' with
    | nil => cases hps.2 rfl
    | cons first' rest' =>
      split_ifs with ha
      · refine h'.setState k ⟨rfl, rfl, rfl⟩ (fun _ => ?_) fun hn => nomatch ha.1.symm.trans hn
        refine { h.global with location := fun ho => ?_ }
        obtain rfl := hp ho
        obtain ⟨rfl, rfl⟩ := List.cons.inj (he ho)
        exact ⟨rfl, rfl, rfl⟩
      · exact h'.setState k ⟨rfl, rfl, rfl⟩ (fun ha' => absurd ⟨ha', by simp⟩ ha) fun _ => h.global

/-- A picture update goes on in both runs. -/
theorem resume_pic (h : Alike fresh own l o s₁ s₂) {t₁ t₂ : Task} (ht : t₁.Alike own t₂)
    (hp : t₁.isPersonal = true) (hc : fresh = true → t₁.isoCond own o s₁ .done)
    (hs : App.resume debug s₁ t₁ .done = some s₁') :
    ∃ s₂', App.resume debug s₂ t₂ .done = some s₂' ∧
      Alike fresh own l (o.resume own debug s₁ t₁ .done) s₁' s₂' := by
  cases ht with
  | same _ ht => exact absurd hp (by simp [ht])
  | geocode hu => cases hs
  | picUser hu =>
    refine exists_of_some ?_ hs
    rw [← h.auth]
    split_ifs
    · exact h.spawn_personal (.picUpdate hu)
    · exact h
  | picUpdate hu => exact exists_of_some (h.spawn_personal (.picUpdated hu)) hs
  | picUpdated hu =>
    refine exists_of_some ?_ hs
    rw [← h.auth]
    cases s₁.auth with
    | none => exact h
    | some uid => exact h.spawn_personal (.picQuery hu)
  | @picQuery _ _ uid _ hu =>
    refine exists_of_some ?_ hs
    rw [← h.query]
    cases hq : (DocStore.query s₁.store [.name "Users_Info"] "uid" (.str uid)).head? with
    | none => exact h
    | some p =>
      refine h.issue (Write.alike_of_fields ?_ (by simp [pictureFields]) (by simp [pictureFields])
        (by simp)) (fun hf => ?_) _
      · intro id _ _ k hk d₁ d₂ hd
        have hm : ∀ u, k ∉ (pictureFields u).map Prod.fst := fun u => notMem_pictureFields u k hk
        rw [DocStore.merge_of_notMem (hm _), DocStore.merge_of_notMem (hm _), hd]
      · rw [hu (hc hf (by rw [hq]; rfl))]

/-- Two continuations of tasks with personal data. -/
theorem resume_personal (h : Alike fresh own l o s₁ s₂) {t₁ t₂ : Task} {r₁ r₂ : Reply}
    (ht : t₁.Alike own t₂) (hp : t₁.isPersonal = true) (hr : r₁.Alike own r₂)
    (hf : r₁ ≠ .failed) (hc : fresh = true → t₁.isoCond own o s₁ r₁)
    (hs : App.resume debug s₁ t₁ r₁ = some s₁') :
    ∃ s₂', App.resume debug s₂ t₂ r₂ = some s₂' ∧
      Alike fresh own l (o.resume own debug s₁ t₁ r₁) s₁' s₂' := by
  by_cases hd : r₁ = .done
  · subst hd
    cases hr
    exact h.resume_pic ht hp hc hs
  · cases ht with
    | same _ ht => exact absurd hp (by simp [ht])
    | geocode hu =>
      cases hr with
      | placemarks hps he => exact exists_of_some (h.onPlacemarks _ hu hps he) hs
      | form | url => cases hs
      | same _ hr =>
        cases r₁ with
        | failed => exact absurd rfl hf
        | form | url | placemarks => cases hr
        | _ => cases hs
    | picUser | picUpdate | picUpdated | picQuery =>
      cases r₁ with
      | failed => exact absurd rfl hf
      | done => exact absurd rfl hd
      | _ => cases hs

/-- **Continuations.**  Two tasks that agree up to personal data, with replies
    that agree up to personal data, keep the states alike. -/
theorem resume (h : Alike fresh own l o s₁ s₂) {t₁ t₂ : Task} {r₁ r₂ : Reply}
    (ht : t₁.Alike own t₂) (hr : r₁.Alike own r₂)
    (hc : fresh = true → t₁.isoCond own o s₁ r₁) (hs : App.resume debug s₁ t₁ r₁ = some s₁') :
    ∃ s₂', App.resume debug s₂ t₂ r₂ = some s₂' ∧
      Alike fresh own l (o.resume own debug s₁ t₁ r₁) s₁' s₂' := by
  by_cases hf : r₁ = .failed
  · subst hf
    cases hr
    rw [resume_failed] at hs
    rw [resume_failed]
    refine exists_of_some ?_ hs
    cases t₁ <;> exact h
  · cases hp : t₁.isPersonal with
    | true => exact h.resume_personal ht hp hr hf hc hs
    | false =>
      have ht' : t₁ = t₂ := by
        cases ht with
        | same => rfl
        | _ => cases hp
      subst ht'
      cases hr' : r₁.isPersonal with
      | true => exact h.resume_reply hp hr hr' hc hs
      | false =>
        have hr'' : r₁ = r₂ := by
          cases hr with
          | same => rfl
          | _ => cases hr'
        exact hr'' ▸ h.resume_same hp hr' hf hc hs

/-! ### Steps -/

theorem onTop (h : Alike fresh own l o s₁ s₂) {sc : Screen} {f₁ f₂ : ℕ → App}
    (hf : ∀ k, Alike fresh own l o' (f₁ k) (f₂ k)) (hs : s₁.onTop sc f₁ = some s₁') :
    ∃ s₂', s₂.onTop sc f₂ = some s₂' ∧ Alike fresh own l o' s₁' s₂' := by
  obtain ⟨k, st, hst, rfl⟩ := App.onTop_eq_some hs
  refine ⟨f₂ k, ?_, hf k⟩
  rw [App.onTop, ← h.stack, hst]
  exact if_pos rfl

/-- Between two steps every continuation has its flag. -/
theorem labelled (h : Alike fresh own l o s₁ s₂) (hl : o.tasks.length = s₁.tasks.length) :
    Labelled Task.Alike o.tasks s₁.tasks s₂.tasks := by
  obtain ⟨n, hn⟩ := h.tasks
  have h₀ : n = 0 := by
    have := hn.length_eq
    rw [List.length_append, List.length_replicate] at this
    omega
  rwa [h₀, List.replicate_zero, List.append_nil] at hn

/-- The next step may be of either session. -/
theorem between (h : Alike fresh own l o s₁ s₂) (hl : o.tasks.length = s₁.tasks.length)
    (own' : Bool) : Alike fresh own' l o s₁ s₂ :=
  { h with tasks := ⟨0, (List.append_nil o.tasks).symm ▸ h.labelled hl⟩ }

/-- A step ends: its continuations get their flags. -/
theorem started (h : Alike fresh own l o s₁ s₂) :
    Alike fresh own l (o.started own s₁) s₁ s₂ ∧
      (o.started own s₁).tasks.length = s₁.tasks.length := by
  obtain ⟨n, hn⟩ := h.tasks
  have hl := hn.length_eq
  have h₀ : s₁.tasks.length - o.tasks.length = n := by
    rw [← hl, List.length_append, List.length_replicate, Nat.add_sub_cancel_left]
  have ht : (o.started own s₁).tasks = o.tasks ++ List.replicate n own := by
    rw [Own.started, h₀]
  refine ⟨{ h with global := { h.global with }, tasks := ⟨0, ?_⟩ }, by rw [ht, hl]⟩
  rw [ht, List.replicate_zero, List.append_nil]
  exact hn

/-- A continuation is taken out in both runs, with its flag. -/
theorem dequeue (h : Alike fresh own l o s₁ s₂) (hl : o.tasks.length = s₁.tasks.length) {i : ℕ}
    {t₁ : Task} (ht₁ : s₁.tasks[i]? = some t₁) :
    ∃ t₂, s₂.tasks[i]? = some t₂ ∧ t₁.Alike (o.owns fresh i) t₂ ∧
      Alike fresh (o.owns fresh i) l (o.dequeue i) (s₁.dequeue i) (s₂.dequeue i) := by
  have h' := h.between hl (o.owns fresh i)
  have hn := h.labelled hl
  obtain ⟨own₁, t₂, ho, ht₂, ht⟩ := hn.getElem? ht₁
  refine ⟨t₂, ht₂, ht.imp fun h => ?_, { h' with global := { h'.global with }, tasks := ⟨0, ?_⟩ }⟩
  · rw [Own.owns, ho, Option.getD_some, Bool.and_eq_true] at h
    exact h.2
  · rw [List.replicate_zero, List.append_nil]
    exact hn.eraseIdx i

theorem answer (h : Alike fresh own l o s₁ s₂) (j : ℕ) :
    Alike fresh own l o (s₁.answer j) (s₂.answer j) :=
  { h with pending := forall₂_eraseIdx h.pending j }

theorem dispose (h : Alike fresh own l o s₁ s₂) (k : ℕ) :
    Alike fresh own l o (s₁.dispose k) (s₂.dispose k) :=
  { h with mounted := congrArg (List.filter _) h.mounted }

theorem relaunch (h : Alike fresh own l o s₁ s₂) :
    Alike fresh own l
      { o with
        userName := true, userPhoneNumber := true, userImage := true, location := true,
        tasks := [] }
      s₁.relaunch s₂.relaunch :=
  { h with
    global := ⟨rfl, rfl, fun _ => rfl, fun _ => rfl, fun _ => rfl, fun _ => ⟨rfl, rfl, rfl⟩⟩
    stack := by rw [App.relaunch_stack, App.relaunch_stack, h.nextKey]
    mounted := by rw [App.relaunch_mounted, App.relaunch_mounted, h.nextKey]
    nextKey := congrArg (· + 1) h.nextKey
    images := rfl
    tasks := by
      rw [App.relaunch_tasks, App.relaunch_tasks, h.nextKey]
      exact ⟨1, .cons (.same _ rfl) .nil⟩
    pending := by
      refine List.forall₂_map_left_iff.2 (List.forall₂_map_right_iff.2 (h.pending.imp ?_))
      exact fun w₁ w₂ hw => ⟨hw.site, rfl, rfl, hw.fields, hw.uid, by simp⟩ }

theorem accepted (h : Alike fresh own l o s₁ s₂) (site : Site) :
    site.accepted s₁.store = site.accepted s₂.store := by
  cases site with
  | picture id => exact DocStore.isSome_lookup_congr h.keys _
  | _ => rfl

theorem filter_creation (s : App) (w : Write) : (s.creation w).filter Event.isOutput = [] := by
  unfold App.creation
  split
  · split_ifs <;> rfl
  · rfl

theorem getD_emptyDoc (d : Option Doc) (k : String) :
    (d.getD DocStore.emptyDoc) k = d.bind (· k) := by
  cases d <;> rfl

/-- A write is applied in both runs. -/
theorem commit (h : Alike fresh own l o s₁ s₂) {w₁ w₂ : Write} (hw : w₁.Alike o.profiles w₂)
    (ha : w₁.site.accepted s₁.store) : Alike fresh own l o (s₁.commit w₁) (s₂.commit w₂) := by
  have ha₂ : w₁.site.accepted s₂.store := h.accepted w₁.site ▸ ha
  have hl₁ := fun id => Site.lookup_write w₁.site s₁.store w₁.fields id ha
  have hl₂ := fun id => Site.lookup_write w₁.site s₂.store w₂.fields id ha₂
  refine { h with
    tasks := ?_
    keys := ?_
    profile := ?_
    uid := ?_
    log := ?_ }
  · rw [App.commit_tasks, App.commit_tasks, ← hw.onDone]
    exact h.append_tasks fun t ht => hw.callbacks t (List.mem_append_left _ ht)
  · rw [App.commit_store, App.commit_store, ← hw.site]
    exact Site.keys_write w₁.site h.keys _ _
  · intro id hid k hk
    rw [App.profile, App.profile, App.commit_store, App.commit_store, ← hw.site, hl₁, hl₂]
    split_ifs with hs
    · refine hw.fields id hs hid k hk _ _ ?_
      rw [getD_emptyDoc, getD_emptyDoc]
      exact h.profile id hid k hk
    · exact h.profile id hid k hk
  · intro id
    rw [App.profile, App.profile, App.commit_store, App.commit_store, ← hw.site, hl₁, hl₂]
    split_ifs with hs
    · rw [Option.bind_some, Option.bind_some, DocStore.merge_of_notMem hw.uid.1,
        DocStore.merge_of_notMem hw.uid.2, getD_emptyDoc, getD_emptyDoc]
      exact h.uid id
    · exact h.uid id
  · refine h.log.append fun _ => ?_
    rw [List.filter_cons_of_neg (by simp [Event.isOutput]), filter_creation,
      List.filter_cons_of_neg (by simp [Event.isOutput]), filter_creation]

/-- A step of the user or of the system, without personal data. -/
theorem step_same (h : Alike fresh own l o s₁ s₂) {a : Action}
    (ha : ∀ i r k p, a ≠ .resume i r ∧ a ≠ .position k p) (hne : a ≠ .relaunch)
    (hc : fresh = true → IsoCond (s₁, o) a) (hs : step debug s₁ a = some s₁') :
    ∃ s₂', step debug s₂ a = some s₂' ∧ Alike fresh own l o s₁' s₂' := by
  cases a with
  | resume i r => exact absurd rfl (ha i r 0 ⟨0, 0⟩).1
  | position k p => exact absurd rfl (ha 0 .done k p).2
  | relaunch => exact absurd rfl hne
  | back =>
    simp only [step, ← h.stack] at hs ⊢
    split_ifs at hs ⊢
    exact exists_of_some h.pop hs
  | dispose k =>
    simp only [step, ← h.stack] at hs ⊢
    split_ifs at hs ⊢
    exact exists_of_some (h.dispose k) hs
  | buildAnimation => exact h.onTop (fun _ => h.create _) hs
  | openEnterNumber => exact h.onTop (fun _ => h.push _) hs
  | facebookSignIn | continuePhone | pickProfileImage => exact h.onTop (fun _ => h.spawn rfl) hs
  | doneOTP =>
    simp only [step, ← h.stack] at hs ⊢
    split at hs
    · exact exists_of_some (h.spawn rfl) hs
    · cases hs
  | continueProfile =>
    refine h.onTop (fun k => ?_) hs
    rw [App.continueProfile, App.continueProfile, ← h.images, ← h.auth]
    refine h.spawnAll fun t ht => ?_
    rcases List.mem_cons.1 ht with rfl | ht
    · rfl
    · split_ifs at ht
      · rw [List.mem_singleton.1 ht]
        rfl
      · cases ht
  | continueLocation | proceed | tapMarker labor =>
    simp only [step, ← h.auth] at hs ⊢
    exact h.onTop (fun _ => h.spawn rfl) hs
  | openMap => exact h.onTop (fun _ => h.push _) hs
  | openDrawer =>
    refine h.onTop (fun _ => (h.create _).emit fun hf => ?_) hs
    rw [h.global.userImage (hc hf)]
  | pickDrawerImage k =>
    simp only [step, ← h.mounted, ← h.auth] at hs ⊢
    split_ifs at hs ⊢
    exact h.onTop (fun _ => h.spawn rfl) hs
  | signOut =>
    refine h.onTop (fun _ => Alike.pushAndRemoveAll ?_ _) hs
    exact { h with auth := rfl }
  | showCustomMap => exact h.onTop (fun _ => h.create _) hs
  | commit j =>
    simp only [step] at hs
    split at hs
    · rename_i w₁ hw₁
      obtain ⟨w₂, hw₂, hw⟩ := forall₂_getElem? h.pending hw₁
      split_ifs at hs with hac
      obtain rfl := Option.some.inj hs
      refine ⟨_, ?_, (h.answer j).commit hw hac⟩
      simp only [step, hw₂]
      exact if_pos (hw.site ▸ h.accepted _ ▸ hac)
    · cases hs
  | reject j =>
    simp only [step] at hs
    split at hs
    · rename_i w₁ hw₁
      obtain ⟨w₂, hw₂, hw⟩ := forall₂_getElem? h.pending hw₁
      obtain rfl := Option.some.inj hs
      refine ⟨_, by simp only [step, hw₂, ← hw.onError], (h.answer j).spawnAll fun t ht => ?_⟩
      exact hw.callbacks t (List.mem_append_right _ ht)
    · cases hs

/-- A position event reaches the listener in both runs. -/
theorem position (h : Alike fresh fresh l o s₁ s₂) {p p' : Position} (hp : fresh = true → p = p')
    (hs : s₁.position k p = some s₁') : ∃ s₂' o', s₂.position k p' = some s₂' ∧
      Alike fresh fresh l o' s₁' s₂' ∧
      o.step fresh debug s₁ s₁' (.position k p) = o'.started fresh s₁' := by
  have h' : Alike fresh fresh l o (s₁.emit (.position p)) (s₂.emit (.position p')) :=
    h.emit fun _ => rfl
  simp only [App.position, ← h.mounted] at hs ⊢
  simp only [Own.step]
  cases hm : s₁.mounted.find? (·.key = k) with
  | none =>
    simp only [hm] at hs
    cases hs
  | some e =>
    obtain ⟨sc, k'⟩ := e
    simp only [hm] at hs ⊢
    cases sc with
    | userLocation =>
      obtain rfl := Option.some.inj hs
      refine ⟨_, { o with location := fresh }, rfl, ?_, rfl⟩
      refine { h' with global := { h.global with location := fun hf => ?_ } }
      rw [hp hf]
      exact ⟨rfl, rfl, rfl⟩
    | customMap =>
      obtain rfl := Option.some.inj hs
      exact ⟨_, o, rfl, h'.spawn_personal (.geocode hp), rfl⟩
    | _ => cases hs

/-- **Steps.**  Two actions that agree up to personal data keep the states alike. -/
theorem step (h : Alike fresh own l o s₁ s₂) (hl : o.tasks.length = s₁.tasks.length)
    {a₁ a₂ : Action} (ha : ActionsAlike fresh (s₁, o) a₁ a₂)
    (hc : fresh = true → IsoCond (s₁, o) a₁) (hs : step debug s₁ a₁ = some s₁') :
    ∃ own' s₂', Mazdoor.step debug s₂ a₂ = some s₂' ∧
      Alike fresh own' l (o.step fresh debug s₁ s₁' a₁) s₁' s₂' ∧
      (o.step fresh debug s₁ s₁' a₁).tasks.length = s₁'.tasks.length := by
  -- what is left is to give the new continuations their flags
  suffices ∃ own' o' s₂', Mazdoor.step debug s₂ a₂ = some s₂' ∧ Alike fresh own' l o' s₁' s₂' ∧
      o.step fresh debug s₁ s₁' a₁ = o'.started own' s₁' by
    obtain ⟨own', o', s₂', hs₂, h', ho⟩ := this
    exact ⟨own', s₂', hs₂, ho ▸ h'.started⟩
  have hf := h.between hl fresh
  cases ha with
  | @resume i r₁ r₂ hr =>
    simp only [Mazdoor.step] at hs
    cases ht₁ : s₁.tasks[i]? with
    | none => simp [ht₁] at hs
    | some t₁ =>
      rw [ht₁] at hs
      obtain ⟨t₂, ht₂, ht, h⟩ := h.dequeue hl ht₁
      obtain ⟨s₂', hs₂, h'⟩ := h.resume ht hr (fun hf => hf ▸ hc hf t₁ ht₁) hs
      refine ⟨_, _, s₂', by simp only [Mazdoor.step, ht₂]; exact hs₂, h', ?_⟩
      simp only [Own.step, ht₁]
      rfl
  | position k hp =>
    obtain ⟨s₂', o', hs₂, h', ho⟩ := hf.position hp hs
    exact ⟨fresh, o', s₂', hs₂, h', ho⟩
  | same _ ha =>
    by_cases hne : a₁ = .relaunch
    · subst hne
      obtain rfl := Option.some.inj hs
      exact ⟨fresh, _, _, rfl, hf.relaunch, rfl⟩
    · obtain ⟨s₂', hs₂, h'⟩ := hf.step_same ha hne hc hs
      refine ⟨fresh, o, s₂', hs₂, h', ?_⟩
      cases a₁ with
      | resume i r => exact absurd rfl (ha i r 0 ⟨0, 0⟩).1
      | position k p => exact absurd rfl (ha 0 .done k p).2
      | relaunch => exact absurd rfl hne
      | _ => rfl

/-- **Runs.**  Runs whose actions agree up to personal data keep the states alike. -/
theorem run {x y : App × Own} {as₁ as₂ : List Action} (h : Alike fresh own l x.2 x.1 s₂)
    (hl : x.2.tasks.length = x.1.tasks.length)
    (ha : Paired (track fresh debug) (ActionsAlike fresh) x as₁ as₂)
    (hc : fresh = true → Along (track fresh debug) IsoCond x as₁)
    (hr : Transition.run (track fresh debug) x as₁ = some y) :
    ∃ own' t₂, Transition.run (Mazdoor.step debug) s₂ as₂ = some t₂ ∧
      Alike fresh own' l y.2 y.1 t₂ ∧ y.2.tasks.length = y.1.tasks.length := by
  let R (x : App × Own) (s : App) : Prop :=
    ∃ own, Alike fresh own l x.2 x.1 s ∧ x.2.tasks.length = x.1.tasks.length
  have hstep : ∀ x s₂ a b x', R x s₂ → (fresh = true → IsoCond x a) → ActionsAlike fresh x a b →
      track fresh debug x a = some x' → ∃ s₂', Mazdoor.step debug s₂ b = some s₂' ∧ R x' s₂' := by
    rintro x s₂ a b x' ⟨own, h, hl⟩ hC hab hs
    obtain ⟨hs, hx⟩ := withGhost_eq_some.1 hs
    obtain ⟨own', s₂', hs₂, h'⟩ := h.step hl hab hC hs
    exact ⟨s₂', hs₂, own', hx ▸ h'⟩
  have hC : Along (track fresh debug) (fun x a => fresh = true → IsoCond x a) x as₁ := by
    cases fresh with
    | true => exact (hc rfl).imp fun _ _ h _ => h
    | false => exact along_true.imp fun _ _ _ => nofun
  obtain ⟨t₂, ht₂, own', h', hl'⟩ := run_simulation hstep ⟨own, h, hl⟩ hC ha hr
  exact ⟨own', t₂, ht₂, h', hl'⟩

end Alike

theorem SameOutputs.outputsSince {s₁ s₂ t₁ t₂ : App}
    (h : SameOutputs true (s₁.log, s₂.log) t₁.log t₂.log) :
    s₁.outputsSince t₁ = s₂.outputsSince t₂ := by
  obtain ⟨es₁, es₂, h₁, h₂, he⟩ := h rfl
  rw [App.outputsSince, App.outputsSince, h₁, h₂, List.drop_left, List.drop_left, he]

end

/-- Two backends with the same documents, where what a request reads differs in
    the profiles `L` only, and a query finds the same. -/
structure StoresAlike (L : List Seg) (st₁ st₂ : Store) : Prop where
  keys : st₁.keys = st₂.keys
  profile : ∀ id ∉ L, ∀ k ∈ requestKeys,
    (st₁.lookup (usersInfo id)).bind (· k) = (st₂.lookup (usersInfo id)).bind (· k)
  uid : ∀ id, (st₁.lookup (usersInfo id)).bind (· "uid") = (st₂.lookup (usersInfo id)).bind (· "uid")

theorem StoresAlike.launch {L : List Seg} {st₁ st₂ : Store} (h : StoresAlike L st₁ st₂)
    (accounts : List Uid) :
    Alike false false ([], []) { profiles := L } (.launch accounts st₁)
      (.launch accounts st₂) where
  auth := rfl
  accounts := rfl
  currentUserId := rfl
  storedName _ := rfl
  global := ⟨rfl, rfl, fun _ => rfl, fun _ => rfl, fun _ => rfl, fun _ => ⟨rfl, rfl, rfl⟩⟩
  stack := rfl
  mounted := rfl
  nextKey := rfl
  images := rfl
  tasks := ⟨0, .cons (.same _ rfl) .nil⟩
  keys := h.keys
  profile := h.profile
  uid := h.uid
  pending := .nil
  nextAuto := rfl
  log := nofun

/-- **Isolation.**  Take two runs that differ in personal data up to a sign-out,
    and after it in the replies to what the first account has left behind.  If
    the rest of the first run shows and writes only what is its own, then both
    show and write the same. -/
theorem isolated_of_isoCond {debug : Bool} {accounts : List Uid} {L : List Seg} {st₁ st₂ : Store}
    {as₁ as₂ bs₁ bs₂ : List Action} {s₁ s₂ t₁ t₂ : App} {o : Own} (hst : StoresAlike L st₁ st₂)
    (ha : SessionsAlike as₁ as₂)
    (hs₁ : run (step debug) (.launch accounts st₁) as₁ = some s₁)
    (hs₂ : run (step debug) (.launch accounts st₂) as₂ = some s₂)
    (ho : o = Own.after false debug (.launch accounts st₁) { profiles := L } as₁)
    (hb : Paired (track true debug) (ActionsAlike true) (s₁, o) (.signOut :: bs₁) (.signOut :: bs₂))
    (ht₁ : run (step debug) s₁ (.signOut :: bs₁) = some t₁)
    (ht₂ : run (step debug) s₂ (.signOut :: bs₂) = some t₂)
    (hc : Along (track true debug) IsoCond (s₁, o) (.signOut :: bs₁)) :
    s₁.outputsSince t₁ = s₂.outputsSince t₂ := by
  subst ho
  obtain ⟨own, s₂', hs₂', h, hl⟩ := Alike.run (x := (.launch accounts st₁, { profiles := L }))
    (hst.launch accounts) rfl (paired_of_forall₂ ha _) nofun (run_withGhost hs₁)
  obtain rfl := Option.some.inj (hs₂.symm.trans hs₂')
  have h' : Alike true own (s₁.log, s₂.log) _ s₁ s₂ :=
    { h with log := fun _ => ⟨[], [], (List.append_nil _).symm, (List.append_nil _).symm, rfl⟩ }
  obtain ⟨_, t₂', ht₂', ht, -⟩ := Alike.run (x := (s₁, _)) h' hl hb (fun _ => hc) (run_withGhost ht₁)
  obtain rfl := Option.some.inj (ht₂.symm.trans ht₂')
  exact ht.log.outputsSince

/-- The session goes on with a picture from the drawer, whose upload is under way. -/
def uploadingSessionOf (name : String) : List Action :=
  sessionOf name ++ [.pickDrawerImage 5, .resume 0 .done]

/-- `A` signs out, and the upload of `A` ends with a URL; `B` signs in by Facebook
    for the first time, fills in the form, stores a location and opens the drawer,
    while the picture update of `A` goes on to its query. -/
def newAccountAfter (u : String) : List Action :=
  [.dispose 5, .resume 0 (.url u), .facebookSignIn, .resume 1 .done, .resume 1 (.credential "B"),
    .resume 1 .done, .pickProfileImage, .resume 1 .done, .continueProfile,
    .resume 1 (.form "Bashir" "03007654321"), .resume 1 (.url "v"), .resume 1 .done, .commit 1,
    .resume 1 .done, .resume 1 .done, .position 8 ⟨1, 2⟩, .continueLocation, .resume 1 .done,
    .resume 1 .done, .resume 1 .done, .resume 1 .done, .openDrawer, .resume 0 .done,
    .resume 0 .done, .resume 0 .done, .resume 0 .done]

theorem uploadingSessionOf_alike :
    SessionsAlike (uploadingSessionOf "Ahmad") (uploadingSessionOf "Bilal") :=
  List.rel_append sessionOf_alike (List.forall₂_same.2 fun _ _ => .refl _ _ _)

theorem newAccountAfter_isolated :
    ∃ s₁ s₂ t₁ t₂, run (step false) (.launch [] ∅) (uploadingSessionOf "Ahmad") = some s₁ ∧
      run (step false) (.launch [] ∅) (uploadingSessionOf "Bilal") = some s₂ ∧
      run (step false) s₁ (.signOut :: newAccountAfter "a1") = some t₁ ∧
      run (step false) s₂ (.signOut :: newAccountAfter "a2") = some t₂ ∧
      s₁.outputsSince t₁ = s₂.outputsSince t₂ ∧ (s₁.outputsSince t₁).length = 4 := by
  refine ⟨_, _, _, _, rfl, rfl, rfl, rfl, ?_, by decide⟩
  refine @isolated_of_isoCond false [] [] ∅ ∅ (uploadingSessionOf "Ahmad")
    (uploadingSessionOf "Bilal") (newAccountAfter "a1") (newAccountAfter "a2") _ _ _ _ _
    ⟨rfl, fun _ _ _ _ => rfl, fun _ => rfl⟩ uploadingSessionOf_alike rfl rfl rfl ?_ rfl rfl
    (by decide)
  exact ⟨.refl _ _ _, .refl _ _ _, .resume 0 (.url nofun), .refl (fun _ _ => .refl _ _ _) _ _⟩

end Mazdoor
