/-
  The messages that a fleet causes.

  A document that a write creates triggers the handler of its path.  Firebase
  spreads the invocations over processes, each with variables of its own.

  * `births`: the documents that a list of applied writes creates;
  * `onCreate`: the handler of a new document; `sent`: what it sends, in a process
    with any past (`serve_onCreate`);
  * `Births`: the profiles that were created, and what their first writes were;
  * `welcomed_once`: one message for each new profile, and no others.
-/
import Mazdoor.History
import Mazdoor.Functions

namespace Mazdoor

open Transition DocStore Script

/-! ## Creations -/

/-- The document that a write creates. -/
def birth (st : Store) (x : Site × Fields) : Option (Path × Doc) :=
  if (st.lookup x.1.path).isNone ∧ x.1.accepted st then some (x.1.path, merge emptyDoc x.2)
  else none

/-- The writes applied one after the other. -/
def replay (st : Store) (ws : List (Site × Fields)) : Store :=
  ws.foldl (fun st x => x.1.write st x.2) st

/-- The documents that the writes `ws` create, in their order. -/
def births : Store → List (Site × Fields) → List (Path × Doc)
  | _, [] => []
  | st, x :: ws => (birth st x).toList ++ births (x.1.write st x.2) ws

/-- The id of a profile, by its path. -/
def profileId : Path → Option Seg
  | [.name "Users_Info", id] => some id
  | _ => none

/-- The first version of the profile `id`. -/
def firstDoc (id : Seg) (ws : List (Site × Fields)) : Doc :=
  merge emptyDoc (((writesTo id ws).head?.map Prod.snd).getD [])

section
variable (numberToString : ℚ → String)

/-- The handler that a new document triggers (`functions.firestore.document`). -/
def onCreate : Path × Doc → Handler
  | ([.name "Users_Info", _], d) => notifyUser numberToString d
  | ([.name "Labors_Info", _], d) => notifyLabor numberToString d
  | ([.name "Labor_Requests", _, .name "From_User", _], d) => sendRequestToLabor numberToString d
  | _ => pure ()

/-- What is sent about a new document. -/
def sent : Path × Doc → List (Value × Payload)
  | ([.name "Users_Info", _], d) => [Creation.expected numberToString (.usersInfo d)]
  | ([.name "Labors_Info", _], d) => [Creation.expected numberToString (.laborsInfo d)]
  | _ => []

end

/-! ## Processes -/

section
variable {numberToString : ℚ → String} {g : Ident → Option Value}

/-- An invocation sends what its document says, whatever ran before it. -/
theorem invoke_onCreate (hg : g .user = none) (b : Path × Doc) :
    (invoke (onCreate numberToString b) g).1 .user = none ∧
      (invoke (onCreate numberToString b) g).2 = sent numberToString b := by
  unfold onCreate sent
  split
  · rw [invoke_notifyUser]
    exact ⟨by simpa [welcomed] using hg, rfl⟩
  · rw [invoke_notifyLabor]
    exact ⟨by simpa [welcomed] using hg, rfl⟩
  · rw [invoke_sendRequestToLabor hg]
    exact ⟨by simpa using hg, rfl⟩
  · refine ⟨hg, ?_⟩
    split
    case h_3 => rfl
    all_goals simp_all

theorem serve_onCreate (hg : g .user = none) (bs : List (Path × Doc)) :
    serve (onCreate numberToString) g bs = bs.map (sent numberToString) :=
  (serve_eq_map_iff (P := fun _ => True) (fun _ b hg => (invoke_onCreate hg b).1)
    (fun _ b hg => iff_of_true (invoke_onCreate hg b).2 trivial) hg bs).2 fun _ _ => trivial

/-- What a pool of processes sends, up to the order. -/
theorem pool_sent {pool : List (List (Path × Doc))} {bs : List (Path × Doc)}
    (hp : pool.flatten.Perm bs) :
    (pool.map (serve (onCreate numberToString) coldStart)).flatten.flatten.Perm
      (bs.map (sent numberToString)).flatten := by
  have hpool : pool.map (serve (onCreate numberToString) coldStart) =
      pool.map (List.map (sent numberToString)) :=
    List.map_congr_left fun bs _ => serve_onCreate rfl bs
  rw [hpool, ← List.map_flatten]
  exact (hp.map _).flatten

end

/-! ## Profiles -/

theorem profileId_eq {p : Path} {id : Seg} : profileId p = some id ↔ p = usersInfo id := by
  unfold profileId usersInfo
  split
  · simp
  · next h => exact ⟨nofun, fun hp => absurd hp (h id)⟩

theorem Site.path_of_user {site : Site} {id : Seg} (h : site.user = some id) :
    site.path = usersInfo id := by
  cases site <;> simp only [Site.user, Option.some.injEq, reduceCtorEq] at h <;> subst h <;> rfl

theorem Site.profileId_path (site : Site) : profileId site.path = site.user := by
  cases hu : site.user with
  | some id => exact profileId_eq.2 (Site.path_of_user hu)
  | none =>
    rw [Option.eq_none_iff_forall_ne_some]
    intro id h
    have hid := (profileId_eq.1 h).symm
    clear h
    cases site <;> simp only [Site.user, reduceCtorEq] at hu
    case laborRequest key =>
      exact usersInfo_ne_laborRequests id key [] (by simpa [Site.path] using hid)
    case fromUser key id' => exact usersInfo_ne_laborRequests id key _ hid

theorem births_concat (st : Store) (ws : List (Site × Fields)) (x : Site × Fields) :
    births st (ws ++ [x]) = births st ws ++ (birth (replay st ws) x).toList := by
  induction ws generalizing st with
  | nil => simp [births, replay]
  | cons y ws ih => rw [List.cons_append, births, births, ih, List.append_assoc]; rfl

/-- The documents that the app creates send as profiles or not at all. -/
theorem sent_of_site (numberToString : ℚ → String) (site : Site) (d : Doc) :
    sent numberToString (site.path, d) =
      (site.user.map fun _ => Creation.expected numberToString (.usersInfo d)).toList := by
  cases site with
  | registration id | location id | picture id => rfl
  | laborRequest key =>
    simp only [Site.path, laborRequests, Site.user]
    unfold sent
    split <;> simp_all
  | fromUser key id =>
    simp only [Site.path, fromUser, laborRequests, Site.user]
    unfold sent
    split <;> simp_all

/-- The documents `bs` that the writes `ws` have created on the way to `st`. -/
structure Births (store st : Store) (ws : List (Site × Fields)) (bs : List (Path × Doc)) :
    Prop where
  profiles : ∀ id, st.lookup (usersInfo id) =
    mergeAll (store.lookup (usersInfo id)) ((writesTo id ws).map Prod.snd)
  sites : ∀ b ∈ bs, ∃ site : Site, b.1 = site.path
  first : ∀ b ∈ bs, ∀ id, b.1 = usersInfo id →
    ∃ x, (writesTo id ws).head? = some x ∧ b.2 = merge emptyDoc x.2
  nodup : (bs.filterMap fun b => profileId b.1).Nodup
  mem : ∀ id, id ∈ bs.filterMap (fun b => profileId b.1) ↔
    store.lookup (usersInfo id) = none ∧ (st.lookup (usersInfo id)).isSome

section
variable {store st : Store} {ws : List (Site × Fields)} {bs : List (Path × Doc)} {w : Write}
  {id : Seg}

theorem births_nil (store : Store) : Births store store [] [] where
  profiles _ := rfl
  sites := by simp
  first := by simp
  nodup := List.nodup_nil
  mem id := by cases store.lookup (usersInfo id) <;> simp

/-- A profile that is missing has had no writes. -/
theorem Births.missing (h : Births store st ws bs) (hn : st.lookup (usersInfo id) = none) :
    writesTo id ws = [] ∧ store.lookup (usersInfo id) = none := by
  have hp := h.profiles id
  rw [hn] at hp
  cases hw : writesTo id ws using List.reverseRecOn with
  | nil => exact ⟨rfl, by simpa [hw] using hp.symm⟩
  | append_singleton xs x => simp [hw, mergeAll_append, mergeInto] at hp

/-- First writes stay first. -/
theorem Births.first_append (h : Births store st ws bs) (x : Site × Fields) :
    ∀ b ∈ bs, ∀ id, b.1 = usersInfo id →
      ∃ y, (writesTo id (ws ++ [x])).head? = some y ∧ b.2 = merge emptyDoc y.2 := by
  intro b hb id hid
  obtain ⟨y, hy, hd⟩ := h.first b hb id hid
  exact ⟨y, by rw [writesTo, List.filter_append, ← writesTo, List.head?_append, hy]; rfl, hd⟩

/-- An applied write creates a document if it was missing. -/
theorem Births.commit (h : Births store st ws bs) (ha : w.site.accepted st) :
    Births store (w.site.write st w.fields) (ws ++ [w.content])
      (bs ++ (birth st w.content).toList) := by
  have hlookup (id : Seg) := Site.lookup_write w.site st w.fields id ha
  have hprofiles : ∀ id, (w.site.write st w.fields).lookup (usersInfo id) =
      mergeAll (store.lookup (usersInfo id)) ((writesTo id (ws ++ [w.content])).map Prod.snd) :=
    fun id => lookup_merged (h.profiles id) ha
  by_cases hb : (st.lookup w.site.path).isNone
  · have hbirth : birth st w.content = some (w.site.path, merge emptyDoc w.fields) :=
      if_pos ⟨hb, ha⟩
    rw [hbirth, Option.toList_some]
    have hsites : ∀ b ∈ bs ++ [(w.site.path, merge emptyDoc w.fields)],
        ∃ site : Site, b.1 = site.path := fun b hb => by
      rcases List.mem_append.1 hb with hb | hb
      · exact h.sites b hb
      · exact ⟨w.site, by rw [List.mem_singleton.1 hb]⟩
    have hids : (bs ++ [(w.site.path, merge emptyDoc w.fields)]).filterMap
        (fun b => profileId b.1) = bs.filterMap (fun b => profileId b.1) ++ w.site.user.toList := by
      rw [List.filterMap_append]
      cases hu : w.site.user <;> simp [Site.profileId_path, hu]
    refine ⟨hprofiles, hsites, fun b hb' id hid => ?_, ?_, fun id => ?_⟩
    · rcases List.mem_append.1 hb' with hb' | hb'
      · exact h.first_append _ b hb' id hid
      · rw [List.mem_singleton.1 hb'] at hid ⊢
        have hu : w.site.user = some id := by
          rw [← Site.profileId_path]
          exact profileId_eq.2 hid
        have hid : w.site.path = usersInfo id := hid
        rw [hid, Option.isNone_iff_eq_none] at hb
        have hmiss := (h.missing hb).1
        refine ⟨w.content, ?_, rfl⟩
        rw [writesTo, List.filter_append, ← writesTo, hmiss, List.filter_singleton,
          decide_eq_true (by exact hu)]
        rfl
    · rw [hids]
      cases hu : w.site.user with
      | none => simpa using h.nodup
      | some id =>
        rw [Site.path_of_user hu, Option.isNone_iff_eq_none] at hb
        refine List.nodup_append.2 ⟨h.nodup, by simp, fun i hi j hj hij => ?_⟩
        obtain rfl : j = id := by simpa using hj
        subst hij
        have := ((h.mem _).1 hi).2
        simp [hb] at this
    · rw [hids, List.mem_append, h.mem, hlookup]
      by_cases hu : w.site.user = some id
      · rw [Site.path_of_user hu, Option.isNone_iff_eq_none] at hb
        simp [hu, h.missing hb]
      · simp [hu]
  · have hbirth : birth st w.content = none := if_neg fun h => hb h.1
    rw [hbirth, Option.toList_none, List.append_nil]
    refine ⟨hprofiles, h.sites, h.first_append _, h.nodup, fun id => ?_⟩
    rw [h.mem, hlookup]
    by_cases hu : w.site.user = some id
    · rw [Site.path_of_user hu] at hb
      simp [hu, Option.isSome_iff_ne_none, Option.isNone_iff_eq_none.not.1 hb]
    · rw [if_neg hu]

/-- What is sent about the created documents. -/
theorem Births.sent (h : Births store st ws bs) (numberToString : ℚ → String) :
    (bs.map (Mazdoor.sent numberToString)).flatten = (bs.filterMap fun b => profileId b.1).map
      fun id => Creation.expected numberToString (.usersInfo (firstDoc id ws)) := by
  have hb : ∀ b ∈ bs, Mazdoor.sent numberToString b = ((profileId b.1).map fun id =>
      Creation.expected numberToString (.usersInfo (firstDoc id ws))).toList := by
    rintro ⟨p, d⟩ hb
    obtain ⟨site, rfl⟩ := h.sites _ hb
    rw [sent_of_site, Site.profileId_path]
    cases hu : site.user with
    | none => rfl
    | some id =>
      obtain ⟨x, hx, hd⟩ := h.first _ hb id (Site.path_of_user hu)
      have hfirst : firstDoc id ws = d := by rw [firstDoc, hx]; exact hd.symm
      exact congrArg (fun d => [Creation.expected numberToString (.usersInfo d)]) hfirst.symm
  rw [List.map_congr_left hb, List.map_filterMap, List.filterMap_eq_flatMap_toList,
    List.flatMap_def]

end

section
variable {debug : Bool} {ι : Type} [DecidableEq ι] {accounts : List Uid} {store : Store}
  {n : Fleet ι} {as : List (ι × Action)}

theorem births_of_run (hr : run (Fleet.step debug) (Fleet.launch accounts store) as = some n) :
    Births store n.shared.store n.committed (births store n.committed) := by
  refine (committed_invariant (H := fun st ws => st = replay store ws ∧
    Births store st ws (births store ws)) ?_ ⟨rfl, births_nil store⟩ hr).2
  rintro st ws w ⟨rfl, h⟩ ha
  refine ⟨?_, ?_⟩
  · rw [replay, replay, List.foldl_append]
    rfl
  · rw [births_concat]
    exact h.commit ha

/-- **Welcome messages.**  However the triggers of a fleet's run are spread over
    processes and ordered, what is sent is one welcome for each profile that the
    run has created, to the token of its first write and with the name and phone
    of it; nothing is sent about requests or later writes. -/
theorem welcomed_once (numberToString : ℚ → String)
    (hr : run (Fleet.step debug) (Fleet.launch accounts store) as = some n)
    {pool : List (List (Path × Doc))} (hp : pool.flatten.Perm (births store n.committed)) :
    ∃ ids : List Seg, ids.Nodup ∧
      (∀ id, id ∈ ids ↔
        store.lookup (usersInfo id) = none ∧ (n.shared.store.lookup (usersInfo id)).isSome) ∧
      (pool.map (serve (onCreate numberToString) coldStart)).flatten.flatten.Perm
        (ids.map fun id =>
          Creation.expected numberToString (.usersInfo (firstDoc id n.committed))) := by
  have h := births_of_run hr
  refine ⟨_, h.nodup, h.mem, ?_⟩
  rw [← h.sent]
  exact pool_sent hp

/-- The triggers of `twoDevices` in two processes. -/
theorem welcomed_twoDevices :
    ∃ n : Fleet ℕ, run (Fleet.step true) (Fleet.launch [] ∅) twoDevices = some n ∧
      ∃ ids : List Seg, ids.Nodup ∧
        (∀ id, id ∈ ids ↔ (∅ : Store).lookup (usersInfo id) = none ∧
          (n.shared.store.lookup (usersInfo id)).isSome) ∧
        ([[], births ∅ n.committed].map
          (serve (onCreate fun q => toString q.num) coldStart)).flatten.flatten.Perm
          (ids.map fun id => Creation.expected (fun q => toString q.num)
            (.usersInfo (firstDoc id n.committed))) :=
  ⟨_, rfl, @welcomed_once true ℕ _ [] ∅ _ twoDevices (fun q => toString q.num) rfl
    [[], births ∅ _] (List.Perm.of_eq (List.append_nil _))⟩

end
end Mazdoor
