/-
  Picture uploads (`uploadPic` of `lib/Screens/profile.dart` and of
  `lib/Screens/sideMenu.dart`).

  Both functions name the stored object by the `basename` of the picked file,
  in the one bucket of all users, and keep the URL of that object.  An upload
  puts its object and then obtains the URL; uploads of all users, and those of
  one user, run interleaved.

  * `Kept`: the URL that a user obtained last leads to the picture that this
    user uploaded last;
  * `pictures_mixed`: two users whose files have one name;
  * `Orderly` is a condition on the steps of a run: no two uploads of one user
    overlap, and the names of different users are apart;
  * `kept_iff`: a run whose steps are orderly loses and replaces no picture; and
    no interleaving of some uploads does, if and only if different users' files
    have different names, and no user uploads two different pictures.
-/
import Mathlib.Data.List.Induction
import Mazdoor.Lib.Interleave
import Mazdoor.Data

namespace Mazdoor

open Transition Interleave

/-! ## Uploads -/

abbrev Bytes : Type := List UInt8

/-- The screens that upload pictures. -/
inductive UploadScreen where
  | userProfile
  | sideMenu
  deriving DecidableEq

/-- A call of a screen's `uploadPic` by a user's device, with the picked file. -/
structure Upload where
  screen : UploadScreen
  user : Uid
  path : String
  picture : Bytes
  deriving DecidableEq

/-- What an upload does next. -/
inductive UploadStage where
  /-- the upload task stores the object -/
  | putFile
  /-- `getDownloadURL`, and the assignments that follow -/
  | getDownloadURL
  | finished
  deriving DecidableEq

/-- The bucket, and the object of the URL that each user obtained last. -/
structure Storage where
  objects : String → Option Bytes
  userImage : Uid → Option String

section
-- `basename` of `package:path`
variable (basename : String → String)

/-- One step of an upload. -/
def upload (x : Storage) (u : Upload) : UploadStage → Option (Storage × Upload × UploadStage)
  | .putFile => some
    ({ x with objects := Function.update x.objects (basename u.path) (some u.picture) },
      u, .getDownloadURL)
  | .getDownloadURL => some
    ({ x with userImage := Function.update x.userImage u.user (some (basename u.path)) },
      u, .finished)
  | .finished => none

/-- `lib/Screens/profile.dart` -/
def UserProfile.uploadPic : Storage → Upload → UploadStage → Option (Storage × Upload × UploadStage) :=
  upload basename

/-- `lib/Screens/sideMenu.dart`: `task.isComplete` holds after `task.onComplete`. -/
def SideMenu.uploadPic : Storage → Upload → UploadStage → Option (Storage × Upload × UploadStage) :=
  upload basename

def uploadPic (x : Storage) : Upload × UploadStage → Option (Storage × Upload × UploadStage)
  | (u, g) =>
    match u.screen with
    | .userProfile => UserProfile.uploadPic basename x u g
    | .sideMenu => SideMenu.uploadPic basename x u g

abbrev Uploads : Type := System Storage (Upload × UploadStage)

/-- The uploads of all users, in the order in which they were started. -/
def Uploads.start (objects : String → Option Bytes) (uploads : List Upload) : Uploads :=
  ⟨⟨objects, fun _ => none⟩, uploads.map (·, .putFile)⟩

/-- The next step of upload `i`. -/
abbrev Uploads.step : Uploads → ℕ → Option Uploads := Interleave.step (uploadPic basename)

def Uploads.Finished (s : Uploads) : Prop := ∀ p ∈ s.procs, p.2 = .finished

instance (s : Uploads) : Decidable s.Finished := inferInstanceAs (Decidable (∀ p ∈ s.procs, _))

/-- The picture that the user uploaded last. -/
def lastPicture (uploads : List Upload) (v : Uid) : Option Bytes :=
  (uploads.filter (·.user = v)).getLast?.map (·.picture)

/-- The last URL of every user leads to the picture that the user uploaded last. -/
def Kept (uploads : List Upload) (x : Storage) : Prop :=
  ∀ v, ∀ b ∈ lastPicture uploads v, ∃ n ∈ x.userImage v, x.objects n = some b

/-- Upload `i` replaces an object that the `userImage` of another user refers to. -/
def Replaces (s : Uploads) (i : ℕ) : Prop :=
  ∃ u, s.procs[i]? = some (u, .putFile) ∧
    ∃ v, v ≠ u.user ∧ s.shared.userImage v = some (basename u.path)

/-- Files of different users have different names. -/
def NamesApart (uploads : List Upload) : Prop :=
  ∀ a ∈ uploads, ∀ b ∈ uploads, a.user ≠ b.user → basename a.path ≠ basename b.path

/-- No user uploads two different pictures. -/
def OnePicture (uploads : List Upload) : Prop :=
  ∀ a ∈ uploads, ∀ b ∈ uploads, a.user = b.user → a.picture = b.picture

/-- When upload `i` stores its object, the user's earlier uploads have finished,
    and other users have stored no object of that name. -/
def Uploads.Orderly (s : Uploads) (i : ℕ) : Prop :=
  ∀ p ∈ s.procs[i]?, p.2 = .putFile →
    (∀ q ∈ s.procs.take i, q.1.user = p.1.user → q.2 = .finished) ∧
      ∀ q ∈ s.procs, q.1.user ≠ p.1.user → q.2 ≠ .putFile →
        basename q.1.path ≠ basename p.1.path

instance (s : Uploads) (i : ℕ) : Decidable (s.Orderly basename i) :=
  inferInstanceAs (Decidable (∀ p ∈ s.procs[i]?, _ → (∀ q ∈ _, _) ∧ ∀ q ∈ _, _))

end

/-! ## A replaced picture -/

/-- `basename` on a device with slashes as separators. -/
def posixBasename (path : String) : String :=
  String.ofList (((path.toList.reverse.dropWhile (· = '/')).takeWhile (· ≠ '/')).reverse)

/-- Two users pick different files of the same name. -/
def sameNames : List Upload :=
  [⟨.userProfile, "A", "/storage/DCIM/1.jpg", [1]⟩,
    ⟨.sideMenu, "B", "/storage/Download/1.jpg", [2]⟩]

/-- **The claimed isolation fails**: `A`'s URL leads to `B`'s picture. -/
theorem pictures_mixed :
    ∃ s, run (Uploads.step posixBasename) (Uploads.start (fun _ => none) sameNames)
        [0, 0, 1, 1] = some s ∧ Uploads.Finished s ∧ ¬ Kept sameNames s.shared := by
  refine ⟨_, rfl, ?_, ?_⟩
  · rintro x hx
    obtain rfl | rfl := List.mem_pair.1 hx <;> rfl
  · intro h
    obtain ⟨n, hn, ho⟩ := h "A" [1] rfl
    obtain rfl : "1.jpg" = n := Option.some.inj hn
    exact absurd ho (by decide)

/-! ## The invariant -/

section
variable {basename : String → String} {uploads : List Upload} {s s' : Uploads} {u : Upload}

theorem uploadPic_eq (x : Storage) (g : UploadStage) :
    uploadPic basename x (u, g) = upload basename x u g := by
  dsimp only [uploadPic]
  cases u.screen <;> rfl

/-- Stored objects hold a picture with their name, and every obtained URL names
    the object of a finished upload of its user. -/
structure Stored (basename : String → String) (uploads : List Upload) (s : Uploads) : Prop where
  uploads_eq : s.procs.map Prod.fst = uploads
  stored : ∀ p ∈ s.procs, p.2 ≠ .putFile →
    ∃ a ∈ uploads, basename a.path = basename p.1.path ∧
      s.shared.objects (basename p.1.path) = some a.picture
  image : ∀ v n, s.shared.userImage v = some n →
    ∃ a, (a, .finished) ∈ s.procs ∧ a.user = v ∧ basename a.path = n
  obtained : ∀ a, (a, .finished) ∈ s.procs → s.shared.userImage a.user ≠ none

theorem Stored.start {objects : String → Option Bytes} :
    Stored basename uploads (.start objects uploads) where
  uploads_eq := by simp [Uploads.start, Function.comp_def]
  stored p hp h := by
    obtain ⟨a, -, rfl⟩ := List.mem_map.1 hp
    exact absurd rfl h
  image v n h := by cases h
  obtained a ha := by simp [Uploads.start] at ha

theorem Stored.step {i : ℕ} (hi : Stored basename uploads s)
    (h : Uploads.step basename s i = some s') : Stored basename uploads s' := by
  obtain ⟨⟨u, g⟩, x, ⟨u', g'⟩, hu, ha, rfl⟩ := Interleave.step_cases h
  have hmem : (u, g) ∈ s.procs := List.mem_of_getElem? hu
  have hup : u ∈ uploads := hi.uploads_eq ▸ List.mem_map_of_mem hmem
  have heq : ∀ g', (s.procs.set i (u, g')).map Prod.fst = uploads := fun g' =>
    (map_set_eq Prod.fst (u, g') hu rfl).trans hi.uploads_eq
  rw [uploadPic_eq] at ha
  cases g with
  | putFile =>
    obtain ⟨rfl, rfl, rfl⟩ := Option.some.inj ha
    refine ⟨heq _, ?_, ?_, ?_⟩
    · intro p hp hg
      simp only [Function.update_apply]
      split_ifs with hn
      · exact ⟨u, hup, hn.symm, rfl⟩
      · rcases List.mem_or_eq_of_mem_set hp with hp | rfl
        · exact hi.stored p hp hg
        · exact absurd rfl hn
    · intro v n hv
      obtain ⟨a, ha, hb⟩ := hi.image v n hv
      exact ⟨a, mem_set_of_ne hu ha (by simp), hb⟩
    · intro a ha
      rcases List.mem_or_eq_of_mem_set ha with ha | ha
      · exact hi.obtained a ha
      · cases ha
  | getDownloadURL =>
    obtain ⟨rfl, rfl, rfl⟩ := Option.some.inj ha
    refine ⟨heq _, ?_, ?_, ?_⟩
    · intro p hp hg
      rcases List.mem_or_eq_of_mem_set hp with hp | rfl
      · exact hi.stored p hp hg
      · exact hi.stored (u, .getDownloadURL) hmem (by simp)
    · intro v n hv
      simp only [Function.update_apply] at hv
      split_ifs at hv with hvu
      · exact ⟨u, List.mem_set (List.getElem?_eq_some_iff.1 hu).1 _, hvu.symm, Option.some.inj hv⟩
      · obtain ⟨a, ha, hb⟩ := hi.image v n hv
        exact ⟨a, mem_set_of_ne hu ha (by simp), hb⟩
    · intro a ha
      simp only [Function.update_apply]
      split_ifs with hau
      · simp
      · rcases List.mem_or_eq_of_mem_set ha with ha | ha
        · exact hi.obtained a ha
        · cases ha
          exact absurd rfl hau
  | finished => cases ha

/-- The upload of the last picture, after which the user has no other. -/
theorem exists_of_lastPicture {v : Uid} {b : Bytes} (h : b ∈ lastPicture uploads v) :
    ∃ i m, uploads[i]? = some m ∧ m.user = v ∧ m.picture = b ∧
      ∀ (k : ℕ) (a : Upload), uploads[k]? = some a → i < k → a.user ≠ v := by
  induction uploads using List.reverseRecOn with
  | nil => cases h
  | append_singleton l x ih =>
    rw [lastPicture, List.filter_append] at h
    by_cases hx : x.user = v
    · rw [List.filter_cons_of_pos (by simpa using hx), List.filter_nil, List.getLast?_concat] at h
      refine ⟨l.length, x, by simp, hx, Option.some.inj h, fun k a ha hk => ?_⟩
      rw [List.getElem?_eq_none (by rw [List.length_append]; exact hk)] at ha
      cases ha
    · rw [List.filter_cons_of_neg (by simpa using hx), List.filter_nil, List.append_nil] at h
      obtain ⟨i, m, hi, hm, hb, hlast⟩ := ih h
      have hil := (List.getElem?_eq_some_iff.1 hi).1
      refine ⟨i, m, by rwa [List.getElem?_append_left hil], hm, hb, fun k a ha hk => ?_⟩
      by_cases hkl : k < l.length
      · exact hlast k a (by rwa [List.getElem?_append_left hkl] at ha) hk
      · rw [List.getElem?_append_right (Nat.not_lt.1 hkl)] at ha
        obtain rfl := List.mem_singleton.1 (List.mem_of_getElem? ha)
        exact hx

theorem lastPicture_isSome (hu : u ∈ uploads) : ∃ b, b ∈ lastPicture uploads u.user := by
  refine Option.isSome_iff_exists.1 ?_
  rw [lastPicture, Option.isSome_map, List.getLast?_isSome]
  exact List.ne_nil_of_mem (List.mem_filter.2 ⟨hu, by simp⟩)

/-- An upload never meets another user's `userImage`. -/
theorem Stored.not_replaces (hi : Stored basename uploads s) (ha : NamesApart basename uploads)
    (i : ℕ) : ¬ Replaces basename s i := by
  rintro ⟨u, hu, v, hv, hn⟩
  obtain ⟨a, hm, rfl, hb⟩ := hi.image v _ hn
  have hmem : ∀ p ∈ s.procs, p.1 ∈ uploads := fun p hp => hi.uploads_eq ▸ List.mem_map_of_mem hp
  exact ha a (hmem _ hm) u (hmem _ (List.mem_of_getElem? hu)) hv hb

theorem Stored.kept (hi : Stored basename uploads s) (hf : Uploads.Finished s)
    (ha : NamesApart basename uploads) (ho : OnePicture uploads) : Kept uploads s.shared := by
  intro v b hb
  obtain ⟨i, m, hm, rfl, rfl, -⟩ := exists_of_lastPicture hb
  have hm := List.mem_of_getElem? hm
  obtain ⟨p, hp, rfl⟩ := List.mem_map.1 (hi.uploads_eq ▸ hm)
  obtain ⟨n, hn⟩ := Option.ne_none_iff_exists'.1 (hi.obtained p.1 (hf p hp ▸ hp))
  obtain ⟨a, hma, hu, rfl⟩ := hi.image _ n hn
  obtain ⟨c, hc, hca, hco⟩ := hi.stored _ hma (by simp)
  have hau : a ∈ uploads := hi.uploads_eq ▸ List.mem_map_of_mem hma
  -- the object of the URL was put by the same user
  have hcu : c.user = a.user := by
    by_contra hne
    exact ha c hc a hau hne hca
  refine ⟨_, hn, hco.trans ?_⟩
  rw [ho c hc p.1 hm (hcu.trans hu)]

/-! ## Orderly runs -/

/-- Upload `i` is the last of its user to have stored its object. -/
def Uploads.Latest (s : Uploads) (i : ℕ) (u : Upload) : Prop :=
  ∀ (k : ℕ) (p : Upload × UploadStage), s.procs[k]? = some p → i < k → p.1.user = u.user →
    p.2 = .putFile

/-- The uploads of a user follow one another, and the object and the URL of the
    latest one are its own. -/
structure Ordered (basename : String → String) (s : Uploads) : Prop where
  earlier : ∀ (i : ℕ) (u : Upload) (g : UploadStage), s.procs[i]? = some (u, g) → g ≠ .putFile →
    ∀ (k : ℕ) (p : Upload × UploadStage), s.procs[k]? = some p → k < i → p.1.user = u.user →
      p.2 = .finished
  object : ∀ (i : ℕ) (u : Upload) (g : UploadStage), s.procs[i]? = some (u, g) → g ≠ .putFile →
    s.Latest i u → s.shared.objects (basename u.path) = some u.picture
  image : ∀ (i : ℕ) (u : Upload), s.procs[i]? = some (u, .finished) → s.Latest i u →
    s.shared.userImage u.user = some (basename u.path)

theorem Ordered.start {objects : String → Option Bytes} :
    Ordered basename (.start objects uploads) := by
  have hg : ∀ (i : ℕ) (u : Upload) (g : UploadStage),
      (Uploads.start objects uploads).procs[i]? = some (u, g) → g = .putFile := by
    intro i u g h
    obtain ⟨_, -, h⟩ := List.mem_map.1 (List.mem_of_getElem? h)
    exact (Prod.mk.inj h).2.symm
  exact ⟨fun i u g h hne => absurd (hg i u g h) hne, fun i u g h hne => absurd (hg i u g h) hne,
    fun i u h => absurd (hg i u _ h) (by simp)⟩

section
variable {i : ℕ} {g g' : UploadStage} {x : Storage}

/-- An entry after upload `i` has moved to the stage `g'`. -/
theorem getElem?_moved {k : ℕ} {p : Upload × UploadStage} (hu : s.procs[i]? = some (u, g))
    (hp : (s.procs.set i (u, g'))[k]? = some p) :
    k = i ∧ p = (u, g') ∨ k ≠ i ∧ s.procs[k]? = some p := by
  by_cases hk : k = i
  · subst hk
    rw [List.getElem?_set_self (List.getElem?_eq_some_iff.1 hu).1] at hp
    exact Or.inl ⟨rfl, (Option.some.inj hp).symm⟩
  · rw [List.getElem?_set_ne (Ne.symm hk)] at hp
    exact Or.inr ⟨hk, hp⟩

/-- The latest upload was so before the step, if it has moved or is another user's. -/
theorem Uploads.Latest.of_moved {j : ℕ} {v : Upload}
    (h : Uploads.Latest ⟨x, s.procs.set i (u, g')⟩ j v) (hne : j = i ∨ v.user ≠ u.user)
    (hu : s.procs[i]? = some (u, g)) : s.Latest j v := by
  intro k p hp hk hv
  have hki : k ≠ i := by
    rintro rfl
    obtain rfl := Option.some.inj (hp.symm.trans hu)
    exact hne.elim (fun hj => absurd hk (hj ▸ lt_irrefl _)) fun hne => hne hv.symm
  exact h k p ((List.getElem?_set_ne (Ne.symm hki)).trans hp) hk hv

/-- The uploads of the user of `i` are not the latest ones, but for `i` itself. -/
theorem Ordered.other_user (h : Ordered basename s) (hu : s.procs[i]? = some (u, g))
    (hg : g ≠ .finished) (hg' : g' ≠ .putFile) {j : ℕ} {v : Upload} {gv : UploadStage} (hj : j ≠ i)
    (hv : s.procs[j]? = some (v, gv)) (hgv : gv ≠ .putFile)
    (hl : Uploads.Latest ⟨x, s.procs.set i (u, g')⟩ j v) : v.user ≠ u.user := by
  intro hvu
  rcases Nat.lt_or_gt_of_ne hj with hj | hj
  · have hi : (s.procs.set i (u, g'))[i]? = some (u, g') :=
      List.getElem?_set_self (List.getElem?_eq_some_iff.1 hu).1
    exact hg' (hl i _ hi hj hvu.symm)
  · exact hg (h.earlier j v gv hv hgv i _ hu hj hvu.symm)

/-- **An object is stored** in its turn. -/
theorem Ordered.put (h : Ordered basename s) (hu : s.procs[i]? = some (u, .putFile))
    (hc : s.Orderly basename i) :
    Ordered basename ⟨{ s.shared with
      objects := Function.update s.shared.objects (basename u.path) (some u.picture) },
      s.procs.set i (u, .getDownloadURL)⟩ := by
  obtain ⟨hdone, hapart⟩ := hc _ hu rfl
  refine ⟨fun j v gv hv hg k p hp hk hpu => ?_, fun j v gv hv hg hl => ?_, fun j v hv hl => ?_⟩ <;>
    rcases getElem?_moved hu hv with ⟨rfl, hv'⟩ | ⟨hj, hv'⟩
  · obtain ⟨rfl, rfl⟩ := Prod.mk.inj hv'
    rcases getElem?_moved hu hp with ⟨rfl, rfl⟩ | ⟨-, hp'⟩
    · exact absurd hk (lt_irrefl _)
    · exact hdone p (List.mem_iff_getElem?.2 ⟨k, by rw [List.getElem?_take, if_pos hk, hp']⟩) hpu
  · rcases getElem?_moved hu hp with ⟨rfl, rfl⟩ | ⟨-, hp'⟩
    · cases h.earlier j v gv hv' hg _ _ hu hk hpu
    · exact h.earlier j v gv hv' hg k p hp' hk hpu
  · obtain ⟨rfl, rfl⟩ := Prod.mk.inj hv'
    exact Function.update_self ..
  · have hne := h.other_user hu (by simp) (by simp) hj hv' hg hl
    refine (Function.update_of_ne ?_ ..).trans (h.object j v gv hv' hg (hl.of_moved (.inr hne) hu))
    exact hapart _ (List.mem_of_getElem? hv') hne hg
  · cases hv'
  · have hne := h.other_user hu (by simp) (by simp) hj hv' (by simp) hl
    exact h.image j v hv' (hl.of_moved (.inr hne) hu)

/-- **A URL is obtained.** -/
theorem Ordered.url (h : Ordered basename s) (hu : s.procs[i]? = some (u, .getDownloadURL)) :
    Ordered basename ⟨{ s.shared with
      userImage := Function.update s.shared.userImage u.user (some (basename u.path)) },
      s.procs.set i (u, .finished)⟩ := by
  refine ⟨fun j v gv hv hg k p hp hk hpu => ?_, fun j v gv hv hg hl => ?_, fun j v hv hl => ?_⟩ <;>
    rcases getElem?_moved hu hv with ⟨rfl, hv'⟩ | ⟨hj, hv'⟩
  · obtain ⟨rfl, rfl⟩ := Prod.mk.inj hv'
    rcases getElem?_moved hu hp with ⟨-, rfl⟩ | ⟨-, hp'⟩
    · rfl
    · exact h.earlier j v _ hu (by simp) k p hp' hk hpu
  · rcases getElem?_moved hu hp with ⟨-, rfl⟩ | ⟨-, hp'⟩
    · rfl
    · exact h.earlier j v gv hv' hg k p hp' hk hpu
  · obtain ⟨rfl, rfl⟩ := Prod.mk.inj hv'
    exact h.object j v _ hu (by simp) (hl.of_moved (.inl rfl) hu)
  · have hne := h.other_user hu (by simp) (by simp) hj hv' hg hl
    exact h.object j v gv hv' hg (hl.of_moved (.inr hne) hu)
  · obtain ⟨rfl, -⟩ := Prod.mk.inj hv'
    exact Function.update_self ..
  · have hne := h.other_user hu (by simp) (by simp) hj hv' (by simp) hl
    exact (Function.update_of_ne hne ..).trans (h.image j v hv' (hl.of_moved (.inr hne) hu))

theorem Ordered.step (h : Ordered basename s) (hc : s.Orderly basename i)
    (hs : Uploads.step basename s i = some s') : Ordered basename s' := by
  obtain ⟨⟨u, g⟩, x, ⟨u', g'⟩, hu, ha, rfl⟩ := Interleave.step_cases hs
  rw [uploadPic_eq] at ha
  cases g with
  | putFile =>
    obtain ⟨rfl, rfl, rfl⟩ := Option.some.inj ha
    exact h.put hu hc
  | getDownloadURL =>
    obtain ⟨rfl, rfl, rfl⟩ := Option.some.inj ha
    exact h.url hu
  | finished => cases ha

/-- An orderly upload meets no other user's `userImage`. -/
theorem Stored.not_replaces_of_orderly (hi : Stored basename uploads s)
    (hc : s.Orderly basename i) : ¬ Replaces basename s i := by
  rintro ⟨u, hu, v, hv, hn⟩
  obtain ⟨a, hm, rfl, hb⟩ := hi.image v _ hn
  exact (hc _ hu rfl).2 _ hm hv (by simp) hb

theorem Ordered.kept (h : Ordered basename s) (hs : s.procs.map Prod.fst = uploads)
    (hf : Uploads.Finished s) : Kept uploads s.shared := by
  intro v b hb
  obtain ⟨i, m, hm, rfl, rfl, hlast⟩ := exists_of_lastPicture hb
  have hproc (k : ℕ) (p : Upload × UploadStage) (hp : s.procs[k]? = some p) :
      uploads[k]? = some p.1 := by
    rw [← hs, List.getElem?_map, hp]
    rfl
  obtain ⟨⟨u, g⟩, hp⟩ : ∃ p, s.procs[i]? = some p := by
    rw [← hs, List.getElem?_map] at hm
    obtain ⟨p, hp, -⟩ := Option.map_eq_some_iff.1 hm
    exact ⟨p, hp⟩
  obtain rfl : u = m := Option.some.inj ((hproc i _ hp).symm.trans hm)
  obtain rfl : g = .finished := hf _ (List.mem_of_getElem? hp)
  have hl : s.Latest i u := fun k p hpk hk hpu => absurd hpu (hlast k _ (hproc k p hpk) hk)
  exact ⟨_, h.image i u hp hl, h.object i u _ hp (by simp) hl⟩

end

/-- **Orderly runs** keep the pictures of all users. -/
theorem kept_of_orderly {objects : String → Option Bytes} {is : List ℕ}
    (hc : Along (Uploads.step basename) (Uploads.Orderly basename)
      (Uploads.start objects uploads) is)
    (hr : run (Uploads.step basename) (Uploads.start objects uploads) is = some s) :
    Along (Uploads.step basename) (fun s i => ¬ Replaces basename s i)
      (Uploads.start objects uploads) is ∧ (Uploads.Finished s → Kept uploads s.shared) := by
  have hI : ∀ s i s', Stored basename uploads s → Uploads.step basename s i = some s' →
      Stored basename uploads s' := fun _ _ _ hi hs => hi.step hs
  constructor
  · have hCD : ∀ s i, Stored basename uploads s →
        (s.Orderly basename i ↔ s.Orderly basename i ∧ ¬ Replaces basename s i) := fun s i hi =>
      ⟨fun hc => ⟨hc, hi.not_replaces_of_orderly hc⟩, And.left⟩
    exact ((along_congr hI hCD Stored.start).1 hc).imp fun _ _ => And.right
  · have ho : Ordered basename s :=
      run_invariant (fun _ _ _ h hC hs => h.step hC hs) Ordered.start hc hr
    exact ho.kept (run_invariant' hI Stored.start hr).uploads_eq

/-! ## Schedules -/

/-- An upload that has not begun can finish; object and URL are then its own. -/
theorem uploadPic_alone (x : Storage) (u : Upload) :
    alone (uploadPic basename) 2 x (u, .putFile) = some
      (⟨Function.update x.objects (basename u.path) (some u.picture),
        Function.update x.userImage u.user (some (basename u.path))⟩, u, .finished) := by
  simp only [alone, uploadPic_eq, upload, Option.bind_some]

theorem start_getElem? {objects : String → Option Bytes} {i : ℕ} (hu : uploads[i]? = some u) :
    (Uploads.start objects uploads).procs[i]? = some (u, .putFile) := by
  rw [Uploads.start, List.getElem?_map, hu]
  rfl

/-- A user's URL names another user's file as soon as the files have one name. -/
theorem exists_replaces (objects : String → Option Bytes) {v : Upload} (hu : u ∈ uploads)
    (hv : v ∈ uploads) (hne : u.user ≠ v.user) (hn : basename u.path = basename v.path) :
    ∃ is s i s', run (Uploads.step basename) (Uploads.start objects uploads) is = some s ∧
      Uploads.step basename s i = some s' ∧ Replaces basename s i := by
  obtain ⟨i, hi⟩ := List.mem_iff_getElem?.1 hu
  obtain ⟨j, hj⟩ := List.mem_iff_getElem?.1 hv
  have hji : j ≠ i := by
    rintro rfl
    exact hne (congrArg Upload.user (Option.some.inj (hi.symm.trans hj)))
  have hi' : ((Uploads.start objects uploads).procs.set j (v, .finished))[i]? =
      some (u, .putFile) := (List.getElem?_set_ne hji).trans (start_getElem? hi)
  refine ⟨_, _, i, _, run_alone (start_getElem? hj) (uploadPic_alone _ v),
    step_of_advance hi' (uploadPic_eq _ _), u, hi', v.user, hne.symm, ?_⟩
  exact (Function.update_self ..).trans (congrArg some hn.symm)

/-- There is a schedule in which a given upload is the last. -/
theorem exists_last (basename : String → String) (objects : String → Option Bytes)
    (hu : u ∈ uploads) :
    ∃ is s, run (Uploads.step basename) (Uploads.start objects uploads) is = some s ∧
      Uploads.Finished s ∧ s.shared.userImage u.user = some (basename u.path) ∧
      s.shared.objects (basename u.path) = some u.picture := by
  obtain ⟨i, hi⟩ := List.mem_iff_getElem?.1 hu
  have hP : ∀ (x : Storage) (p : Upload × UploadStage), True → p.2 = .putFile →
      ∃ n x' p', alone (uploadPic basename) n x p = some (x', p') ∧ True ∧ p'.2 = .finished := by
    rintro x ⟨u, g⟩ - rfl
    exact ⟨2, _, _, uploadPic_alone x u, trivial, rfl⟩
  have hs : ∀ p ∈ (Uploads.start objects uploads).procs, p.2 = .putFile := by
    intro p hp
    obtain ⟨u, -, rfl⟩ := List.mem_map.1 hp
    rfl
  obtain ⟨is, s, hr, -, his, hf⟩ := exists_run_others hP trivial hs i
  rw [start_getElem? hi] at his
  refine ⟨_, _, run_append.2 ⟨s, hr, run_alone his (uploadPic_alone _ u)⟩, ?_,
    Function.update_self .., Function.update_self ..⟩
  intro p hp
  obtain ⟨k, hk⟩ := List.mem_iff_getElem?.1 hp
  by_cases hki : k = i
  · rw [hki, List.getElem?_set_self (List.getElem?_eq_some_iff.1 his).1] at hk
    obtain rfl := Option.some.inj hk
    rfl
  · rw [List.getElem?_set_ne (Ne.symm hki)] at hk
    exact hf k hki p hk

end

/-- **Pictures of many users.**  In a run whose steps are orderly no upload
    replaces another user's picture, and once all have finished every user's last
    URL leads to the picture uploaded last.  This holds in every interleaving of
    the uploads if and only if different users' files have different names and no
    user uploads two different pictures. -/
theorem kept_iff (basename : String → String) (objects : String → Option Bytes)
    (uploads : List Upload) :
    (∀ is s, run (Uploads.step basename) (Uploads.start objects uploads) is = some s →
      Along (Uploads.step basename) (Uploads.Orderly basename)
        (Uploads.start objects uploads) is →
      Along (Uploads.step basename) (fun s i => ¬ Replaces basename s i)
        (Uploads.start objects uploads) is ∧ (Uploads.Finished s → Kept uploads s.shared)) ∧
    ((∀ is s, run (Uploads.step basename) (Uploads.start objects uploads) is = some s →
      Along (Uploads.step basename) (fun s i => ¬ Replaces basename s i)
        (Uploads.start objects uploads) is ∧ (Uploads.Finished s → Kept uploads s.shared)) ↔
      NamesApart basename uploads ∧ OnePicture uploads) := by
  refine ⟨fun is s hr hc => kept_of_orderly hc hr, fun h => ⟨?_, ?_⟩, ?_⟩
  · intro u hu v hv hne hn
    obtain ⟨is, s, i, s', hr, hs, hrep⟩ := exists_replaces objects hu hv hne hn
    have hc := (h (is ++ [i]) s' (run_append.2 ⟨s, hr, run_cons.2 ⟨s', hs, rfl⟩⟩)).1
    exact (hc.append hr).1 hrep
  · -- both pictures are the one that the user uploaded last
    have hlast : ∀ u ∈ uploads, ∀ b ∈ lastPicture uploads u.user, u.picture = b := by
      intro u hu b hb
      obtain ⟨is, s, hr, hf, hi, ho⟩ := exists_last basename objects hu
      obtain ⟨n, hn, hob⟩ := (h is s hr).2 hf u.user b hb
      obtain rfl := Option.some.inj (hi.symm.trans hn)
      exact Option.some.inj (ho.symm.trans hob)
    intro u hu v hv huv
    obtain ⟨b, hb⟩ := lastPicture_isSome hu
    rw [hlast u hu b hb, hlast v hv b (huv ▸ hb)]
  · rintro ⟨ha, ho⟩ is s hr
    have hI : ∀ s i s', Stored basename uploads s → Uploads.step basename s i = some s' →
        Stored basename uploads s' := fun _ _ _ hi hs => hi.step hs
    exact ⟨along_of_invariant hI (fun s i hi => hi.not_replaces ha i) Stored.start is,
      fun hf => (run_invariant' hI Stored.start hr).kept hf ha ho⟩

/-- `A` uploads a second picture from the drawer, once the first is finished. -/
def secondPicture : List Upload :=
  [⟨.userProfile, "A", "/storage/DCIM/1.jpg", [1]⟩,
    ⟨.userProfile, "B", "/storage/Download/2.jpg", [2]⟩,
    ⟨.sideMenu, "A", "/storage/Pictures/3.jpg", [3]⟩]

theorem secondPicture_kept :
    ∃ s, run (Uploads.step posixBasename) (Uploads.start (fun _ => none) secondPicture)
        [0, 1, 0, 2, 1, 2] = some s ∧ Uploads.Finished s ∧ Kept secondPicture s.shared := by
  refine ⟨_, rfl, by decide, ((kept_iff posixBasename (fun _ => none) secondPicture).1
    [0, 1, 0, 2, 1, 2] _ rfl (by decide)).2 (by decide)⟩

end Mazdoor
