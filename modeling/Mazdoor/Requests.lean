/-
  Request taps of many clients on one store (`initsMarker` of
  `lib/Screens/custom_map.dart`).

  A tap on a labor's marker runs in three steps: the header at
  `Labor_Requests/<laborType + id>`, the read of the client's profile, and the
  request under `From_User`.  `step` lets any tap take its next step, with any
  outcome of the backend, so that a list of steps is one interleaving.

  * `Filed`: the header names the tapped labor, and the requests under it are
    those of the users who tapped that labor;
  * `requests_mixed`: the key has no separator, and two labors share a mailbox;
  * `Traced` is the invariant: every document under `Labor_Requests` comes from
    a tap, and every tap has left the documents of the steps that it has taken;
  * `filed_iff_apart`: every interleaving files every request if and only if
    the tapped labors have their mailboxes apart.
-/
import Mazdoor.Lib.Interleave
import Mazdoor.Data

namespace Mazdoor

open Transition Interleave

/-! ## Taps -/

/-- A tap on the marker of a labor, by a client with this stored key. -/
structure Tap where
  labor : Labor
  currentUserId : Option Uid
  deriving DecidableEq

/-- The step that a tap takes next. -/
inductive Stage where
  /-- the header's `setData` -/
  | header
  /-- the `get` of the profile, for the request at `key` -/
  | profile (key : String)
  /-- the request's `setData`, from the user's profile that was read -/
  | request (key : String) (user : Uid) (profile : Doc)
  | finished

/-- The backend's answer to a step. -/
inductive Outcome where
  | success
  | failure

/-- Paths of documents: an even number of segments, none of them empty. -/
def isDocument (p : Path) : Bool := p.length % 2 = 0 ∧ .name "" ∉ p

/-- The user and the profile that a tap reads: `document(null)` is a document that
    does not exist. -/
def Tap.profile (t : Tap) (st : Store) : Option (Uid × Doc) :=
  t.currentUserId.bind fun u => (st.lookup (usersInfo (.name u))).map (u, ·)

/-- One step of a tap.  A write to a path that is not a document's cannot succeed. -/
def Tap.advance (st : Store) (t : Tap) : Stage → Outcome → Option (Store × Stage)
  | .header, o =>
    match t.labor.key, o with
    -- `request["laborType"] + requestId` throws on null
    | none, _ => some (st, .finished)
    | some key, .success =>
      if isDocument (laborRequests key) then
        some ((Site.laborRequest key).write st (laborRequestFields t.labor), .profile key)
      else none
    -- `whenComplete` runs after an error as well
    | some key, .failure => some (st, .profile key)
  | .profile key, .success =>
    match t.profile st with
    | some (u, d) => some (st, .request key u d)
    -- `labor["userName"]` throws on null
    | none => some (st, .finished)
  | .request key u d, .success =>
    if isDocument (fromUser key (.name u)) then
      some ((Site.fromUser key (.name u)).write st (fromUserFields d), .finished)
    else none
  | .profile _, .failure | .request _ _ _, .failure => some (st, .finished)
  | .finished, _ => none

/-- The store, and the taps of all clients with their progress. -/
abbrev Requests : Type := System Store (Tap × Stage)

namespace Requests

def start (store : Store) (taps : List Tap) : Requests := ⟨store, taps.map (·, .header)⟩

/-- A tap's next step, which the backend answers with `o`. -/
def advance (o : Outcome) (st : Store) (x : Tap × Stage) : Option (Store × Tap × Stage) :=
  (x.1.advance st x.2 o).map fun (st', g) => (st', x.1, g)

def step (s : Requests) (i : ℕ) (o : Outcome) : Option Requests := Interleave.step (advance o) s i

/-- A step that succeeds. -/
def succeed (s : Requests) (i : ℕ) : Option Requests := s.step i .success

def Finished (s : Requests) : Prop := ∀ x ∈ s.procs, x.2 = .finished

end Requests

/-- The mailbox of every tapped labor is its own: the header has the labor's id,
    and the requests are those of the users who tapped it. -/
def Filed (taps : List Tap) (st : Store) : Prop :=
  ∀ t ∈ taps, ∀ key ∈ t.labor.key,
    (∃ d ∈ st.lookup (laborRequests key), d "laborId" = some (.str t.labor.requestId)) ∧
    ∀ x, x ∈ DocStore.children st (laborRequests key ++ [.name "From_User"]) ↔
      ∃ u, x = .name u ∧ ⟨t.labor, some u⟩ ∈ taps

/-! ## A shared mailbox -/

/-- Two labors whose type and id concatenate to the same key. -/
def collidingTaps : List Tap :=
  [⟨⟨"bc", some "a", none, none, none, none⟩, some "A"⟩,
    ⟨⟨"c", some "ab", none, none, none, none⟩, some "B"⟩]

/-- A store with the profiles of two users. -/
def twoProfiles : Store :=
  DocStore.setData (DocStore.setData ∅ (usersInfo (.name "A")) []) (usersInfo (.name "B")) []

/-- **The claimed separation fails**: both taps are filed in one mailbox, whose
    header has the id of the second labor. -/
theorem requests_mixed :
    ∃ s, run Requests.succeed (Requests.start twoProfiles collidingTaps) [0, 0, 0, 1, 1, 1] =
        some s ∧ s.Finished ∧ ¬ Filed collidingTaps s.shared := by
  refine ⟨_, rfl, ?_, ?_⟩
  · rintro x hx
    obtain rfl | rfl := List.mem_pair.1 hx <;> rfl
  · intro h
    obtain ⟨⟨d, hd, hid⟩, -⟩ := h _ List.mem_cons_self "abc" rfl
    obtain rfl := Option.some.inj (hd.symm.trans rfl)
    exact absurd hid (by decide)

/-! ## The condition -/

/-- The mailboxes of two labors are different documents, and that of the second
    is not a request of the first. -/
def Labor.Apart (l l' : Labor) : Prop :=
  ∀ key ∈ l.key, ∀ key' ∈ l'.key, key ≠ key' ∧ ∀ x, laborRequests key' ≠ fromUser key x

/-- The labors of different taps are apart, or the same. -/
def Apart (taps : List Tap) : Prop :=
  ∀ t ∈ taps, ∀ t' ∈ taps, t.labor ≠ t'.labor → t.labor.Apart t'.labor

/-- Without slashes, labors with different keys are apart. -/
theorem Labor.apart_of_ne {l l' : Labor} (hne : l.key ≠ l'.key)
    (hs : ∀ key' ∈ l'.key, '/' ∉ key'.toList) : l.Apart l' := by
  intro key hk key' hk'
  refine ⟨fun h => hne (hk.trans (h ▸ hk'.symm)), fun x h => ?_⟩
  have hl := congrArg List.length h
  simp [laborRequests, fromUser, segments, List.splitOn_eq_singleton (hs key' hk')] at hl

/-- The steps of a tap can succeed: its key is there and gives a document's path,
    and the client's user is there and has a profile. -/
def Tap.CanSucceed (st : Store) (t : Tap) : Prop :=
  ∃ u ∈ t.currentUserId, (∃ key ∈ t.labor.key, isDocument (fromUser key (.name u))) ∧
    usersInfo (.name u) ∈ st

instance (st : Store) (t : Tap) : Decidable (t.CanSucceed st) :=
  inferInstanceAs (Decidable (∃ u ∈ _, (∃ key ∈ _, _) ∧ _))

theorem fromUser_inj {key key' : String} {x x' : Seg} :
    fromUser key x = fromUser key' x' ↔ key = key' ∧ x = x' := by
  constructor
  · intro h
    obtain ⟨hk, hx⟩ := List.append_inj' h rfl
    exact ⟨laborRequests_injective hk, (List.cons.inj (List.cons.inj hx).2).1⟩
  · rintro ⟨rfl, rfl⟩
    rfl

theorem laborRequests_ne_fromUser (key : String) (x : Seg) : laborRequests key ≠ fromUser key x := by
  intro h
  have := congrArg List.length h
  simp [fromUser] at this

theorem isDocument_laborRequests {key : String} {x : Seg} (h : isDocument (fromUser key x)) :
    isDocument (laborRequests key) := by
  simp only [isDocument, fromUser, List.length_append, List.mem_append, not_or,
    decide_eq_true_eq] at h ⊢
  exact ⟨by simpa using h.1, h.2.1⟩

/-! ## The invariant -/

/-- A document under `Labor_Requests` that a tap may have left at a path. -/
def Tap.Left (t : Tap) (p : Path) (d : Doc) : Prop :=
  ∃ key ∈ t.labor.key,
    p = laborRequests key ∧ d = DocStore.merge DocStore.emptyDoc (laborRequestFields t.labor) ∨
      ∃ u ∈ t.currentUserId, p = fromUser key (.name u)

/-- The documents that a tap has left once it is at a stage. -/
def Tap.Reached (st : Store) (t : Tap) : Stage → Prop
  | .header => True
  | .profile key => key ∈ t.labor.key ∧ laborRequests key ∈ st
  | .request key u _ => key ∈ t.labor.key ∧ laborRequests key ∈ st ∧ u ∈ t.currentUserId
  | .finished => ∃ key ∈ t.labor.key, laborRequests key ∈ st ∧
      ∃ u ∈ t.currentUserId, fromUser key (.name u) ∈ st

/-- Every document under `Labor_Requests` comes from a tap, and every tap has
    left the documents of the steps that it has taken. -/
structure Traced (taps : List Tap) (s : Requests) : Prop where
  taps_eq : s.procs.map Prod.fst = taps
  canSucceed : ∀ t ∈ taps, t.CanSucceed s.shared
  origin : ∀ p d, s.shared.lookup (.name "Labor_Requests" :: p) = some d →
    ∃ t ∈ taps, t.Left (.name "Labor_Requests" :: p) d
  reached : ∀ x ∈ s.procs, x.1.Reached s.shared x.2

section
variable {st st' : Store} {t : Tap} {g g' : Stage} {taps : List Tap} {s s' : Requests}

theorem Traced.start (ht : ∀ t ∈ taps, t.CanSucceed st)
    (hst : ∀ p, .name "Labor_Requests" :: p ∉ st) : Traced taps (.start st taps) where
  taps_eq := by simp [Requests.start, Function.comp_def]
  canSucceed := ht
  origin p d h := absurd (AList.lookup_isSome.1 (h ▸ rfl)) (hst p)
  reached x hx := by
    obtain ⟨t, -, rfl⟩ := List.mem_map.1 hx
    trivial

theorem mem_setData {p q : Path} {fs : Fields} :
    q ∈ DocStore.setData st p fs ↔ q = p ∨ q ∈ st := AList.mem_insert st

theorem Tap.CanSucceed.mono (hc : t.CanSucceed st) (hst : ∀ p, p ∈ st → p ∈ st') :
    t.CanSucceed st' := by
  obtain ⟨u, hu, hkey, hp⟩ := hc
  exact ⟨u, hu, hkey, hst _ hp⟩

/-- A tap that can succeed finds its profile. -/
theorem Tap.profile_eq {u : Uid} (hu : u ∈ t.currentUserId) {d : Doc}
    (hd : st.lookup (usersInfo (.name u)) = some d) : t.profile st = some (u, d) := by
  rw [Tap.profile, Option.mem_def.1 hu, Option.bind_some, hd]
  rfl

theorem Tap.mem_profile {x : Uid × Doc} (h : x ∈ t.profile st) :
    x.1 ∈ t.currentUserId ∧ st.lookup (usersInfo (.name x.1)) = some x.2 := by
  obtain ⟨u, hu, h⟩ := Option.bind_eq_some_iff.1 h
  obtain ⟨d, hd, rfl⟩ := Option.map_eq_some_iff.1 h
  exact ⟨hu, hd⟩

/-- What a tap has left stays. -/
theorem Tap.Reached.mono (hr : t.Reached st g) (hst : ∀ p, p ∈ st → p ∈ st') :
    t.Reached st' g := by
  cases g with
  | header => trivial
  | profile key => exact ⟨hr.1, hst _ hr.2⟩
  | request key u d => exact ⟨hr.1, hst _ hr.2.1, hr.2.2⟩
  | finished =>
    obtain ⟨key, hk, h₁, u, hu, h₂⟩ := hr
    exact ⟨key, hk, hst _ h₁, u, hu, hst _ h₂⟩

/-- A successful step writes at most one document, which the tap leaves. -/
theorem advance_cases (hr : t.Reached st g) (hc : t.CanSucceed st)
    (h : t.advance st g .success = some (st', g')) :
    t.Reached st' g' ∧ (st' = st ∨
      ∃ p fs, st' = DocStore.setData st (.name "Labor_Requests" :: p) fs ∧
        t.Left (.name "Labor_Requests" :: p) (DocStore.merge DocStore.emptyDoc fs)) := by
  obtain ⟨u, hu, ⟨key, hk, -⟩, hp⟩ := hc
  cases g with
  | header =>
    simp only [Tap.advance, Option.mem_def.1 hk] at h
    split_ifs at h
    obtain ⟨rfl, rfl⟩ := h
    exact ⟨⟨hk, mem_setData.2 (.inl rfl)⟩, .inr ⟨_, _, rfl, key, hk, .inl ⟨rfl, rfl⟩⟩⟩
  | profile key' =>
    obtain ⟨d, hd⟩ := Option.isSome_iff_exists.1 (AList.lookup_isSome.2 hp)
    simp only [Tap.advance, Tap.profile_eq hu hd, Option.some.injEq, Prod.mk.injEq] at h
    obtain ⟨rfl, rfl⟩ := h
    exact ⟨⟨hr.1, hr.2, hu⟩, .inl rfl⟩
  | request key' u' d =>
    simp only [Tap.advance] at h
    split_ifs at h
    obtain ⟨rfl, rfl⟩ := h
    obtain ⟨hk', hm, hu'⟩ := hr
    exact ⟨⟨key', hk', mem_setData.2 (.inr hm), u', hu', mem_setData.2 (.inl rfl)⟩,
      .inr ⟨_, _, rfl, key', hk', .inr ⟨u', hu', rfl⟩⟩⟩
  | finished => cases h

theorem succeed_cases {i : ℕ} (h : s.succeed i = some s') :
    ∃ t g st g', s.procs[i]? = some (t, g) ∧ t.advance s.shared g .success = some (st, g') ∧
      s' = ⟨st, s.procs.set i (t, g')⟩ := by
  obtain ⟨⟨t, g⟩, st, x, ht, ha, rfl⟩ := step_cases (h : Interleave.step _ s i = some s')
  obtain ⟨⟨st, g'⟩, hg, h⟩ := Option.map_eq_some_iff.1 ha
  obtain ⟨rfl, rfl⟩ := h
  exact ⟨t, g, st, g', ht, hg, rfl⟩

theorem Traced.step {i : ℕ} (hi : Traced taps s) (h : s.succeed i = some s') :
    Traced taps s' := by
  obtain ⟨t, g, st, g', ht, ha, rfl⟩ := succeed_cases h
  have hmem : (t, g) ∈ s.procs := List.mem_of_getElem? ht
  have htaps : t ∈ taps := hi.taps_eq ▸ List.mem_map_of_mem hmem
  obtain ⟨hr, hst⟩ := advance_cases (hi.reached _ hmem) (hi.canSucceed t htaps) ha
  have hmono : ∀ p, p ∈ s.shared → p ∈ st := by
    rcases hst with rfl | ⟨p, fs, rfl, -⟩
    · exact fun p h => h
    · exact fun q h => mem_setData.2 (.inr h)
  have htaps_eq : (s.procs.set i (t, g')).map Prod.fst = taps :=
    (map_set_eq Prod.fst (t, g') ht rfl).trans hi.taps_eq
  refine ⟨htaps_eq, fun t ht => (hi.canSucceed t ht).mono hmono, ?_, ?_⟩
  · intro q d hd
    rcases hst with rfl | ⟨p, fs, rfl, hl⟩
    · exact hi.origin q d hd
    · rw [DocStore.lookup_setData] at hd
      split_ifs at hd with hq
      · obtain rfl := Option.some.inj hd
        exact ⟨t, htaps, hq ▸ hl⟩
      · exact hi.origin q d hd
  · intro x hx
    rcases List.mem_or_eq_of_mem_set hx with hx | rfl
    · exact (hi.reached x hx).mono hmono
    · exact hr

theorem Traced.run {is : List ℕ} (hi : Traced taps s) (h : run Requests.succeed s is = some s') :
    Traced taps s' :=
  run_invariant' (fun _ _ _ hi h => hi.step h) hi h

/-- **Taps that are apart.**  Once all taps have finished, every request is filed. -/
theorem Traced.filed (hi : Traced taps s) (hf : s.Finished) (ha : Apart taps) :
    Filed taps s.shared := by
  -- two taps whose labors have one mailbox tapped the same labor
  have hone : ∀ t ∈ taps, ∀ key ∈ t.labor.key, ∀ t' ∈ taps, key ∈ t'.labor.key →
      t'.labor = t.labor := by
    intro t ht key hk t' ht' hk'
    by_contra hne
    exact (ha t' ht' t ht hne key hk' key hk).1 rfl
  have hhead : ∀ t ∈ taps, ∀ key ∈ t.labor.key, ∀ t' ∈ taps, ∀ key' ∈ t'.labor.key, ∀ x,
      laborRequests key ≠ fromUser key' x := by
    intro t ht key hk t' ht' key' hk' x
    by_cases hl : t'.labor = t.labor
    · obtain rfl : key' = key := Option.some.inj (hk'.symm.trans (hl ▸ hk))
      exact laborRequests_ne_fromUser _ x
    · exact (ha t' ht' t ht hl key' hk' key hk).2 x
  have hdone : ∀ t ∈ taps, t.Reached s.shared .finished := by
    intro t ht
    obtain ⟨x, hx, rfl⟩ := List.mem_map.1 (hi.taps_eq ▸ ht)
    exact hf x hx ▸ hi.reached x hx
  intro t ht key hk
  constructor
  · obtain ⟨key', hk', hm, -⟩ := hdone t ht
    obtain rfl : key = key' := Option.some.inj (hk.symm.trans hk')
    obtain ⟨d, hd⟩ := Option.isSome_iff_exists.1 (AList.lookup_isSome.2 hm)
    obtain ⟨t', ht', key', hk', ⟨hp, rfl⟩ | hp⟩ := hi.origin _ d hd
    · obtain rfl : key = key' := laborRequests_injective hp
      rw [hone t ht key hk t' ht' hk'] at hd
      exact ⟨_, hd, rfl⟩
    · obtain ⟨u, -, hp⟩ := hp
      exact absurd hp (hhead t ht key hk t' ht' key' hk' _)
  · intro x
    rw [DocStore.mem_children, List.append_assoc]
    constructor
    · intro hm
      obtain ⟨d, hd⟩ := Option.isSome_iff_exists.1 (AList.lookup_isSome.2 hm)
      obtain ⟨t', ht', key', hk', ⟨hp, -⟩ | hp⟩ := hi.origin _ d hd
      · exact absurd hp.symm (hhead t' ht' key' hk' t ht key hk x)
      · obtain ⟨u, hu, hp⟩ := hp
        obtain ⟨rfl, rfl⟩ := fromUser_inj.1 hp
        have ht'' : (⟨t.labor, some u⟩ : Tap) = t' := by
          rw [← hone t ht key hk t' ht' hk', ← Option.mem_def.1 hu]
        exact ⟨u, rfl, ht'' ▸ ht'⟩
    · rintro ⟨u, rfl, hu⟩
      obtain ⟨key', hk', -, u', hu', hm⟩ := hdone _ hu
      obtain rfl : key = key' := Option.some.inj (hk.symm.trans hk')
      obtain rfl : u = u' := Option.some.inj hu'
      exact hm

/-! ## Schedules -/

/-- A tap that has not begun can run to its end; its request is then the last write. -/
theorem exists_alone (hc : t.CanSucceed st) :
    ∃ st', alone (Requests.advance .success) 3 st (t, .header) = some (st', t, .finished) ∧
      (∀ p, p ∈ st → p ∈ st') ∧ ∃ key ∈ t.labor.key, ∃ u ∈ t.currentUserId, ∃ d,
        st'.lookup (fromUser key (.name u)) =
          some (DocStore.merge DocStore.emptyDoc (fromUserFields d)) := by
  obtain ⟨u, hu, ⟨key, hk, hp⟩, hm⟩ := hc
  -- the store after the header
  obtain ⟨st₁, hst⟩ : ∃ st₁, st₁ = (Site.laborRequest key).write st
      (laborRequestFields t.labor) := ⟨_, rfl⟩
  have hsub : ∀ p, p ∈ st → p ∈ st₁ := fun p hp => hst ▸ mem_setData.2 (.inr hp)
  obtain ⟨d, hd⟩ : ∃ d, st₁.lookup (usersInfo (.name u)) = some d :=
    Option.isSome_iff_exists.1 (AList.lookup_isSome.2 (hsub _ hm))
  have h₁ : t.advance st .header .success = some (st₁, .profile key) := by
    simp only [Tap.advance, Option.mem_def.1 hk, if_pos (isDocument_laborRequests hp), hst]
  have h₂ : t.advance st₁ (.profile key) .success = some (st₁, .request key u d) := by
    simp only [Tap.advance, Tap.profile_eq hu hd]
  have h₃ : t.advance st₁ (.request key u d) .success =
      some ((Site.fromUser key (.name u)).write st₁ (fromUserFields d), .finished) := by
    simp only [Tap.advance, if_pos hp]
  refine ⟨DocStore.setData st₁ (fromUser key (.name u)) (fromUserFields d), ?_,
    fun q hq => mem_setData.2 (.inr (hsub q hq)), key, hk, u, hu, d,
    (DocStore.lookup_setData _ _ _ _).trans (if_pos rfl)⟩
  simp only [alone, Requests.advance, h₁, h₂, h₃, Option.map_some, Option.bind_some]
  rfl

/-- There is a schedule in which all taps finish, a given one last. -/
theorem exists_schedule (hc : ∀ t ∈ taps, t.CanSucceed st) (ht : t ∈ taps) :
    ∃ is s, run Requests.succeed (.start st taps) is = some s ∧ s.Finished ∧
      ∃ key ∈ t.labor.key, ∃ u ∈ t.currentUserId, ∃ d, s.shared.lookup (fromUser key (.name u)) =
        some (DocStore.merge DocStore.emptyDoc (fromUserFields d)) := by
  obtain ⟨i, hi, rfl⟩ := List.mem_iff_getElem.1 ht
  -- the other taps first
  have hP : ∀ (st' : Store) (x : Tap × Stage), (∀ p, p ∈ st → p ∈ st') →
      (x.1.CanSucceed st ∧ x.2 = .header) → ∃ n st'' x', alone (Requests.advance .success) n st' x =
        some (st'', x') ∧ (∀ p, p ∈ st → p ∈ st'') ∧ x'.2 = .finished := by
    rintro st' ⟨t, g⟩ hI ⟨hc, rfl⟩
    obtain ⟨st'', ha, hm, -⟩ := exists_alone (hc.mono hI)
    exact ⟨3, _, _, ha, fun p hp => hm p (hI p hp), rfl⟩
  have hs : ∀ x ∈ (Requests.start st taps).procs, x.1.CanSucceed st ∧ x.2 = .header := by
    intro x hx
    obtain ⟨t, ht, rfl⟩ := List.mem_map.1 hx
    exact ⟨hc t ht, rfl⟩
  obtain ⟨is, s₁, hr₁, hm₁, hi₁, hf₁⟩ := exists_run_others hP (fun _ h => h) hs i
  have hi₂ : s₁.procs[i]? = some (taps[i], .header) := by
    rw [hi₁]
    simp [Requests.start, hi]
  obtain ⟨st₂, ha, -, hl⟩ := exists_alone ((hc _ ht).mono hm₁)
  refine ⟨_, _, run_append.2 ⟨s₁, hr₁, run_alone hi₂ ha⟩, ?_, hl⟩
  intro x hx
  obtain ⟨k, hk⟩ := List.mem_iff_getElem?.1 hx
  by_cases hki : k = i
  · rw [hki, List.getElem?_set_self (List.getElem?_eq_some_iff.1 hi₂).1] at hk
    obtain rfl := Option.some.inj hk
    rfl
  · rw [List.getElem?_set_ne (Ne.symm hki)] at hk
    exact hf₁ k hki x hk

/-- **Requests of many clients.**  Every interleaving of the taps files every
    request, if and only if the tapped labors are apart. -/
theorem filed_iff_apart
    (hid : ∀ t ∈ taps, ∀ t' ∈ taps, t.labor.requestId = t'.labor.requestId → t.labor = t'.labor)
    (hc : ∀ t ∈ taps, t.CanSucceed st) (hst : ∀ p, .name "Labor_Requests" :: p ∉ st) :
    (∀ is s, run Requests.succeed (.start st taps) is = some s → s.Finished →
      Filed taps s.shared) ↔ Apart taps := by
  constructor
  · intro h t ht t' ht' hne key hk key' hk'
    obtain ⟨is, s, hr, hf, -⟩ := exists_schedule hc ht
    obtain ⟨⟨d, hd, hl⟩, hch⟩ := h is s hr hf t ht key hk
    obtain ⟨⟨d', hd', hl'⟩, -⟩ := h is s hr hf t' ht' key' hk'
    constructor
    · rintro rfl
      obtain rfl := Option.some.inj (hd.symm.trans hd')
      exact hne (hid t ht t' ht' (Val.str.inj (Option.some.inj (hl.symm.trans hl'))))
    · -- the second header is listed as a request; let its user's own request come last
      intro x hx
      have hm : fromUser key x ∈ s.shared := hx ▸ AList.lookup_isSome.1 (hd' ▸ rfl)
      obtain ⟨u, rfl, hu⟩ := (hch x).1 (DocStore.mem_children.2 (by rwa [List.append_assoc]))
      obtain ⟨is, s, hr, hf, key₁, hk₁, u₁, hu₁, d₁, hd₁⟩ := exists_schedule hc hu
      obtain rfl : key = key₁ := Option.some.inj (hk.symm.trans hk₁)
      obtain rfl : u = u₁ := Option.some.inj hu₁
      obtain ⟨⟨d', hd', hl'⟩, -⟩ := h is s hr hf t' ht' key' hk'
      rw [hx, hd₁] at hd'
      obtain rfl := Option.some.inj hd'
      cases hl'
  · intro ha is s hr hf
    exact ((Traced.start hc hst).run hr).filed hf ha

end

/-- Two labors of different types. -/
def separateTaps : List Tap :=
  [⟨⟨"1", some "Mason", none, none, none, none⟩, some "A"⟩,
    ⟨⟨"2", some "Painter", none, none, none, none⟩, some "B"⟩]

theorem separateTaps_apart : Apart separateTaps := by
  intro t ht t' ht' hne
  obtain rfl | rfl := List.mem_pair.1 ht <;> obtain rfl | rfl := List.mem_pair.1 ht'
  · exact absurd rfl hne
  · exact Labor.apart_of_ne (by decide) (by decide)
  · exact Labor.apart_of_ne (by decide) (by decide)
  · exact absurd rfl hne

/-- Their requests are filed when the taps run in step. -/
theorem separateTaps_filed :
    ∃ s, run Requests.succeed (.start twoProfiles separateTaps) [0, 1, 0, 1, 0, 1] = some s ∧
      s.Finished ∧ Filed separateTaps s.shared := by
  have hc : ∀ t ∈ separateTaps, t.CanSucceed twoProfiles := by decide
  have hf : ∀ x ∈ separateTaps.map fun t => (t, Stage.finished), x.2 = .finished := by simp
  have hst : ∀ p, .name "Labor_Requests" :: p ∉ twoProfiles := by
    intro p hp
    simp [twoProfiles, mem_setData, usersInfo] at hp
  exact ⟨_, rfl, hf, (filed_iff_apart (by decide) hc hst).2 separateTaps_apart
    [0, 1, 0, 1, 0, 1] _ rfl hf⟩

end Mazdoor
