/-
  The picture update of the drawer (`SideMenu.uploadPic` and
  `UserServices.updateProfilePic`).

  `updateProfilePic` looks for the user's document by a field `uid`.  The
  writers of `Users_Info` call that field `userId` (or do not write it), so the
  query finds nothing, `documents[0]` throws, and the error is swallowed.

  * `ProfileWrite`: the writes to `Users_Info`, in any order and number;
  * `PictureUpdated`: the stored `userImage` is the new URL, the rest is as
    before, and the global agrees with the stored field;
  * `picture_not_stored`: one registration, then one picture;
  * `PicInv` is the invariant of the chain, and `pictureUpdated_iff` the
    theorem: the update is right if and only if there is nothing to update.
-/
import Mazdoor.Step

namespace Mazdoor

open Transition

/-! ## Profiles -/

/-- The writes to `Users_Info` of `UserServices`, with the document's id. -/
inductive ProfileWrite where
  | addPhoneNumbertoFirestoreCollection (id : Seg) (global : Globals)
  | userLocationStore (id : Seg) (global : Globals)
  | pushMessagingToken (id : Seg) (token : Option String)

/-- `UserServices.pushMessagingToken`. -/
def tokenFields (token : Option String) : Fields := [("userToken", .ofString token)]

def ProfileWrite.apply : ProfileWrite → Store → Store
  | .addPhoneNumbertoFirestoreCollection id global, st =>
    (Site.registration id).write st (registrationFields global)
  | .userLocationStore id global, st => (Site.location id).write st (locationFields global)
  | .pushMessagingToken id token, st => DocStore.mergeData st (usersInfo id) (tokenFields token)

/-- The store that a sequence of writes produces. -/
def written (ws : List ProfileWrite) : Store := ws.foldl (fun st w => w.apply st) ∅

/-- The user has a registered document. -/
def Registers (ws : List ProfileWrite) (uid : Uid) : Prop :=
  ∃ global, .addPhoneNumbertoFirestoreCollection (.name uid) global ∈ ws

/-! ## The update -/

/-- The drawer `k` of the signed-in user uploads a picture, and nothing else is on its way. -/
structure App.Uploading (s : App) (k : ℕ) (uid : Uid) : Prop where
  auth : s.auth = some uid
  mounted : s.isMounted k
  tasks : s.tasks = [.drawerUpload k (some uid)]
  pending : s.pending = []

/-- The steps of the chain without a failure. -/
def Action.Succeeds (url : String) : Action → Prop
  | .resume _ r => r = .url url ∨ r = .done
  | .commit _ => True
  | _ => False

/-- The chain is finished. -/
def App.Finished (s : App) : Prop := s.tasks = [] ∧ s.pending = []

/-- What a picture update should do. -/
structure PictureUpdated (s t : App) (uid : Uid) (url : String) : Prop where
  /-- the user's document has the URL, and its other fields are unchanged -/
  stored : ∃ d d', s.profile (.name uid) = some d ∧ t.profile (.name uid) = some d' ∧
    d' "userImage" = some (.str url) ∧ ∀ k ≠ "userImage", d' k = d k
  /-- the other documents are unchanged -/
  others : ∀ p ≠ usersInfo (.name uid), t.store.lookup p = s.store.lookup p
  /-- the global agrees with the document -/
  global : ∃ d', t.profile (.name uid) = some d' ∧
    d' "userImage" = some (.ofString t.global.userImage)

/-! ## An update that is lost -/

/-- `A` has registered with a picture. -/
def registrationOfA : List ProfileWrite :=
  [.addPhoneNumbertoFirestoreCollection (.name "A") { userId := "A", userImage := "u" }]

/-- The device of `A`, with the drawer open. -/
def registeredWithPicture : App :=
  { App.launch ["A"] (written registrationOfA) with
    auth := some "A"
    mounted := [⟨.sideMenu, 0⟩]
    tasks := [.drawerUpload 0 (some "A")] }

/-- The chain, without a failure. -/
def pictureChain (url : String) : List Action :=
  [.resume 0 (.url url), .resume 0 .done, .resume 0 .done, .resume 0 .done, .resume 0 .done]

/-- **The claimed update fails**: the chain ends, and the document has the old picture. -/
theorem picture_not_stored :
    Registers registrationOfA "A" ∧ registeredWithPicture.store = written registrationOfA ∧
      registeredWithPicture.Uploading 0 "A" ∧
      ∃ t, run (step true) registeredWithPicture (pictureChain "v") = some t ∧ t.Finished ∧
        t.global.userImage = some "v" ∧ ¬ PictureUpdated registeredWithPicture t "A" "v" := by
  refine ⟨⟨_, List.mem_cons_self⟩, rfl, ⟨rfl, rfl, rfl, rfl⟩, _, rfl, ⟨rfl, rfl⟩, rfl, fun h => ?_⟩
  obtain ⟨d, d', -, hd', hu, -⟩ := h.stored
  obtain rfl := Option.some.inj hd'
  exact absurd hu (by decide)

/-! ## No document has a `uid` -/

/-- Every write merges fields, and none of them is a `uid`. -/
theorem ProfileWrite.apply_eq (w : ProfileWrite) :
    ∃ id fs, "uid" ∉ fs.map Prod.fst ∧ ∀ st, w.apply st = DocStore.mergeData st (usersInfo id) fs := by
  cases w with
  | addPhoneNumbertoFirestoreCollection id global =>
    exact ⟨id, registrationFields global, by simp [registrationFields], fun st => rfl⟩
  | userLocationStore id global =>
    exact ⟨id, locationFields global, by simp [locationFields], fun st => rfl⟩
  | pushMessagingToken id token =>
    exact ⟨id, tokenFields token, by simp [tokenFields], fun st => rfl⟩

theorem uid_of_writes {ws : List ProfileWrite} {st : Store}
    (hst : ∀ p d, st.lookup p = some d → d "uid" = none) (p : Path) (d : Doc)
    (h : (ws.foldl (fun st w => w.apply st) st).lookup p = some d) : d "uid" = none := by
  induction ws generalizing st with
  | nil => exact hst p d h
  | cons w ws ih =>
    refine ih (fun p d hd => ?_) h
    obtain ⟨id, fs, hfs, hw⟩ := w.apply_eq
    simp only [hw, DocStore.lookup_mergeData] at hd
    split_ifs at hd with hp
    · obtain rfl := Option.some.inj hd
      rw [DocStore.merge_of_notMem hfs]
      cases hw : st.lookup (usersInfo id) with
      | none => rfl
      | some d => exact hst _ d hw
    · exact hst p d hd

/-- **The query finds nothing.** -/
theorem query_written (ws : List ProfileWrite) (v : Val) :
    DocStore.query (written ws) [.name "Users_Info"] "uid" v = [] := by
  refine List.eq_nil_iff_forall_not_mem.2 fun p hp => ?_
  obtain ⟨d, hd, hu, -⟩ := DocStore.mem_query hp
  rw [uid_of_writes (fun p d hd => by cases hd) p d hd] at hu
  cases hu

/-! ## The chain -/

/-- **The invariant**: one task of the chain is left, nothing was written, and
    the global has the URL from the first step on. -/
structure PicInv (s : App) (k : ℕ) (uid : Uid) (url : String) (t : App) : Prop where
  auth : t.auth = some uid
  store : t.store = s.store
  pending : t.pending = []
  mounted : t.mounted = s.mounted
  tasks : t.tasks = [.drawerUpload k (some uid)] ∨
    t.global.userImage = some url ∧
      (t.tasks = [] ∨ ∃ task ∈ [Task.picUser url (some uid), .picUpdate url (some uid),
        .picUpdated url (some uid), .picQuery url uid (some uid)], t.tasks = [task])

section
variable {debug : Bool} {s t t' : App} {k : ℕ} {uid : Uid} {url : String}

theorem App.Uploading.picInv (h : s.Uploading k uid) : PicInv s k uid url s :=
  ⟨h.auth, rfl, h.pending, rfl, .inl h.tasks⟩

theorem PicInv.isMounted (h : PicInv s k uid url t) (j : ℕ) : t.isMounted j = s.isMounted j := by
  rw [App.isMounted, h.mounted]
  rfl

/-- The chain goes on with another task, or ends. -/
theorem PicInv.next (h : PicInv s k uid url t) {task : Task} (ht : t.tasks = [task])
    (hg : t.global.userImage = some url) :
    PicInv s k uid url (t.dequeue 0) ∧ ∀ task' ∈ [Task.picUser url (some uid),
      .picUpdate url (some uid), .picUpdated url (some uid), .picQuery url uid (some uid)],
      PicInv s k uid url ((t.dequeue 0).spawn task') := by
  have hnil : (t.dequeue 0).tasks = [] := by simp [ht]
  refine ⟨⟨h.auth, h.store, h.pending, h.mounted, .inr ⟨hg, .inl hnil⟩⟩, fun task' hm => ?_⟩
  refine ⟨h.auth, h.store, h.pending, h.mounted, .inr ⟨hg, .inr ⟨task', hm, ?_⟩⟩⟩
  rw [App.spawn_tasks, hnil]
  rfl

/-- A continuation of the chain. -/
theorem PicInv.resume {task : Task} {r : Reply} (h : PicInv s k uid url t) (hk : s.isMounted k)
    (hq : DocStore.query s.store [.name "Users_Info"] "uid" (.str uid) = [])
    (ht : t.tasks = [task]) (hr : r = .url url ∨ r = .done)
    (hs : App.resume debug (t.dequeue 0) task r = some t') : PicInv s k uid url t' := by
  rcases h.tasks with htask | ⟨hg, htask | ⟨task', hmem, htask⟩⟩
  · -- the URL arrives: the update is started, and the global is set
    obtain rfl := List.singleton_inj.1 (ht.symm.trans htask)
    rcases hr with rfl | rfl
    · cases hs
      have hassigns : ((t.dequeue 0).spawn (.picUser url (some uid))).assigns debug k = true :=
        Bool.or_eq_true_iff.2 (.inl ((h.isMounted k).trans hk))
      refine ⟨h.auth, h.store, h.pending, h.mounted, .inr ⟨?_, .inr ⟨_, List.mem_cons_self, ?_⟩⟩⟩
      · rw [App.display_global, App.setState_global, if_pos hassigns]
      · rw [App.display_tasks, App.setState_tasks, App.spawn_tasks, App.dequeue_tasks, ht]
        rfl
    · cases hs
  · rw [htask] at ht
    cases ht
  · obtain rfl := List.singleton_inj.1 (ht.symm.trans htask)
    obtain ⟨hend, hnext⟩ := h.next ht hg
    have hauth : (t.dequeue 0).auth = some uid := h.auth
    simp only [List.mem_cons, List.not_mem_nil, or_false] at hmem
    rcases hr with rfl | rfl
    · rcases hmem with rfl | rfl | rfl | rfl <;> cases hs
    · rcases hmem with rfl | rfl | rfl | rfl
      · rw [App.resume, hauth] at hs
        exact Option.some.inj hs ▸ hnext _ (by simp)
      · exact Option.some.inj hs ▸ hnext _ (by simp)
      · rw [App.resume, hauth] at hs
        exact Option.some.inj hs ▸ hnext _ (by simp)
      · have hstore : (t.dequeue 0).store = s.store := h.store
        rw [App.resume, hstore, hq] at hs
        exact Option.some.inj hs ▸ hend

theorem PicInv.step {a : Action} (h : PicInv s k uid url t) (hk : s.isMounted k)
    (hq : DocStore.query s.store [.name "Users_Info"] "uid" (.str uid) = [])
    (ha : a.Succeeds url) (hs : Mazdoor.step debug t a = some t') : PicInv s k uid url t' := by
  cases a with
  | resume i r =>
    simp only [Mazdoor.step] at hs
    split at hs
    · rename_i task hi
      obtain ⟨hlt, htask⟩ := List.getElem?_eq_some_iff.1 hi
      have hone : t.tasks = [task] ∧ i = 0 := by
        rcases h.tasks with ht | ⟨-, ht | ⟨task', -, ht⟩⟩ <;> rw [ht] at hi <;>
          cases i <;> simp_all
      obtain ⟨ht, rfl⟩ := hone
      exact h.resume hk hq ht ha hs
    · cases hs
  | commit j =>
    simp only [Mazdoor.step, h.pending] at hs
    cases hs
  | _ => cases ha

/-- **Picture updates.**  A chain that ends without a failure has stored the
    picture, if and only if the picture was stored before. -/
theorem pictureUpdated_iff {ws : List ProfileWrite} {as : List Action} (h : s.Uploading k uid)
    (hws : s.store = written ws) (ha : ∀ a ∈ as, a.Succeeds url)
    (hr : run (Mazdoor.step debug) s as = some t) (hf : t.Finished) :
    PictureUpdated s t uid url ↔
      ∃ d, s.profile (.name uid) = some d ∧ d "userImage" = some (.str url) := by
  have hq : DocStore.query s.store [.name "Users_Info"] "uid" (.str uid) = [] :=
    hws ▸ query_written ws _
  have hinv : PicInv s k uid url t :=
    run_invariant (fun _ _ _ hi ha hs => hi.step h.mounted hq ha hs) h.picInv
      (along_of_forall ha) hr
  have hprofile : ∀ id, t.profile id = s.profile id := fun id => by
    rw [App.profile, hinv.store]
    rfl
  have hglobal : t.global.userImage = some url := by
    rcases hinv.tasks with ht | ⟨hg, -⟩
    · rw [hf.1] at ht
      cases ht
    · exact hg
  constructor
  · intro hp
    obtain ⟨d, d', hd, hd', hu, -⟩ := hp.stored
    exact ⟨d', (hprofile _).symm.trans hd', hu⟩
  · rintro ⟨d, hd, hu⟩
    have hd' : t.profile (.name uid) = some d := (hprofile _).trans hd
    refine ⟨⟨d, d, hd, hd', hu, fun k _ => rfl⟩, fun p _ => by rw [hinv.store], d, hd', ?_⟩
    rw [hglobal]
    exact hu

end

/-- A picture that was stored before. -/
theorem samePicture_updated :
    ∃ t, run (step true) registeredWithPicture (pictureChain "u") = some t ∧
      PictureUpdated registeredWithPicture t "A" "u" := by
  have ha : ∀ a ∈ pictureChain "u", a.Succeeds "u" := by
    simp [pictureChain, Action.Succeeds]
  have hs : registeredWithPicture.store = written registrationOfA := rfl
  exact ⟨_, rfl, (pictureUpdated_iff (k := 0) ⟨rfl, rfl, rfl, rfl⟩ hs ha rfl ⟨rfl, rfl⟩).2
    ⟨_, rfl, by decide⟩⟩

end Mazdoor
