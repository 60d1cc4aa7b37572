/-
  How requests are filed in a fleet.

  A marker tap writes the header of the labor's mailbox, then reads the user's
  profile and files a request from it, with awaits in between in which the other
  tasks and the other devices go on.  In the model the answer to the read and the
  callback that issues the request are one step of the device: what can happen
  between the two is not in these runs.

  * `FiledAfter`: when a request is issued, its device has issued the header of its
    mailbox before, and its fields are those of the profile at that moment;
  * `Mailed`: an operation that is past its header has issued it;
  * `filed_of_run`: in every run of a fleet every request is filed so;
  * `request_of_run`: every stored request is one of them, unless the header of
    another mailbox was written over it.
-/
import Mazdoor.History
import Mazdoor.Requests

namespace Mazdoor

open Transition DocStore

/-- The profile of `id` after the events of a history. -/
def profileAfter {ι : Type} (store : Store) (h : List (ι × Event)) (id : Seg) : Option Doc :=
  mergeAll (store.lookup (usersInfo id)) ((writesTo id (h.filterMap (·.2.commits))).map Prod.snd)

/-- A request has its header and its profile before it. -/
def FiledAfter {ι : Type} (store : Store) (h : List (ι × Event)) (x : ι × Event) : Prop :=
  ∀ key id fields, x.2.issues = some (.fromUser key id, fields) →
    (∃ header ∈ h, header.1 = x.1 ∧ header.2.issues.map Prod.fst = some (.laborRequest key)) ∧
      ∃ d, profileAfter store h id = some d ∧ fields = fromUserFields d

/-- The mailbox whose header an operation has written. -/
def Task.mailbox : Task → Option String
  | .tapHeader key _ _ | .tapProfile key _ _ => some key
  | _ => none

/-- The header of the mailbox was issued. -/
def App.Header (s : App) (key : String) : Prop := ∃ x ∈ s.issued, x.1 = .laborRequest key

/-- An operation past its header has issued it. -/
structure Mailed (s : App) : Prop where
  books : Balanced s
  tasks : ∀ t ∈ s.tasks, ∀ key ∈ t.mailbox, s.Header key
  pending : ∀ w ∈ s.pending, ∀ t, t ∈ w.onDone ∨ t ∈ w.onError → ∀ key ∈ t.mailbox, s.Header key

/-- A write changes the document at its own path and no other. -/
theorem Site.lookup_write_of_ne (site : Site) (st : Store) (fs : Fields) {p : Path}
    (hp : p ≠ site.path) : (site.write st fs).lookup p = st.lookup p := by
  cases site
  case registration | location => exact (lookup_mergeData _ _ _ _).trans (if_neg hp)
  case picture => exact (lookup_updateData _ _ _ _).trans (if_neg hp)
  case laborRequest | fromUser => exact (lookup_setData _ _ _ _).trans (if_neg hp)

/-- The writes below `Labor_Requests` replace their documents. -/
theorem lookup_write_request {site : Site} {key : String} {id : Seg}
    (hp : fromUser key id = site.path) (st : Store) (fs : Fields) :
    (site.write st fs).lookup (fromUser key id) = some (merge emptyDoc fs) := by
  have hne (i : Seg) : fromUser key id ≠ usersInfo i := (usersInfo_ne_laborRequests _ _ _).symm
  cases site
  case registration | location | picture => exact absurd hp (hne _)
  case laborRequest | fromUser => exact (lookup_setData _ _ _ _).trans (if_pos hp)

section
variable {debug : Bool} {s s' : App} {t t' : Task} {r : Reply} {a : Action} {key : String}

theorem mailbox_of_isInit (h : t.isInit) : t.mailbox = none := by
  cases t <;> simp only [Task.isInit, reduceCtorEq] at h <;> rfl

theorem mailbox_of_starts (h : a.Starts s t) : t.mailbox = none := by
  unfold Action.Starts at h
  split at h <;> first | rfl | exact h.elim

theorem mailbox_of_spawns (h : t.Spawns s r t') (hk : key ∈ t'.mailbox) : key ∈ t.mailbox := by
  unfold Task.Spawns at h
  split at h
  case h_14 => subst h; exact hk
  all_goals first
    | exact h.elim
    | (subst h; cases hk)
    | (rcases h with rfl | rfl <;> cases hk)
    | (obtain ⟨_, -, rfl⟩ := h; cases hk)

theorem App.Header.mono (h : s.Header key) (hs : step debug s a = some s') : s'.Header key := by
  obtain ⟨x, hx, hk⟩ := h
  refine ⟨x, ?_, hk⟩
  rcases issued_step hs with hi | ⟨i, t, w, -, -, -, hi⟩ <;> rw [hi]
  · exact hx
  · exact List.mem_append_left _ hx

/-- The write whose callbacks go on to a mailbox is its header. -/
theorem header_of_issues {w : Write} (h : t.Issues s w) (ht : t' ∈ w.onDone ∨ t' ∈ w.onError)
    (hk : key ∈ t'.mailbox) : w.site = .laborRequest key := by
  cases t <;> simp only [Task.Issues] at h
  case addPhoneNumber =>
    subst h
    simp only [Option.mem_def, Option.some.injEq, reduceCtorEq, or_false] at ht
    subst ht
    cases hk
  case locationStore => subst h; simp at ht
  case tap =>
    obtain ⟨key', -, rfl⟩ := h
    simp only [Option.mem_def, Option.some.injEq, or_self] at ht
    subst ht
    obtain rfl := Option.some.inj hk
    rfl
  case tapProfile => obtain ⟨v, -, d, -, rfl⟩ := h; simp at ht
  case picQuery => obtain ⟨p, -, rfl⟩ := h; simp at ht

theorem Mailed.launch (accounts : List Uid) (store : Store) : Mailed (App.launch accounts store) :=
  ⟨⟨[], List.Perm.refl _⟩,
    fun t ht key hk => (by rw [List.mem_singleton.1 ht] at hk; cases hk),
    fun _ hw => (by cases hw)⟩

theorem Mailed.step (h : Mailed s) (hs : Mazdoor.step debug s a = some s') : Mailed s' := by
  have stay {key : String} (hk : s.Header key) : s'.Header key := hk.mono hs
  have hb := h.books.step hs
  refine ⟨hb, fun t' ht' key hk => ?_, fun w hw t' ht' key hk => ?_⟩
  · rcases App.step_tasks hs t' ht' with ht' | ht'
    · exact stay (h.tasks t' ht' key hk)
    cases ht' with
    | spawned i r ha ht hsp =>
      exact stay (h.tasks _ (List.mem_of_getElem? ht) key (mailbox_of_spawns hsp hk))
    | started ht =>
      obtain ⟨-, sc, ht⟩ := ht
      rw [mailbox_of_isInit (App.isInit_of_mem_initTasks ht)] at hk
      cases hk
    | done j ha hw ht => exact stay (h.pending _ (List.mem_of_getElem? hw) _ (Or.inl ht) key hk)
    | error j ha hw ht => exact stay (h.pending _ (List.mem_of_getElem? hw) _ (Or.inr ht) key hk)
    | tapped ha ht =>
      rw [mailbox_of_starts ht] at hk
      cases hk
    | geocode => cases hk
  · rcases App.step_pending hs hw with ⟨i, -, t, -, hx⟩ | hw | ⟨w₀, hw₀, rfl⟩
    · exact ⟨_, hb.mem_issued_of_pending hw, header_of_issues hx ht' hk⟩
    · exact stay (h.pending w hw t' ht' key hk)
    · simp at ht'

/-- A request is issued past its header, from the profile of the moment. -/
theorem Mailed.request {w : Write} {id : Seg} (h : Mailed s) (ht : t ∈ s.tasks)
    (hw : t.Issues s w) (hs : w.site = .fromUser key id) :
    s.Header key ∧ ∃ d, s.profile id = some d ∧ w.fields = fromUserFields d := by
  cases t <;> simp only [Task.Issues] at hw
  case tapProfile key' who uid =>
    obtain ⟨u, -, d, hd, rfl⟩ := hw
    obtain ⟨rfl, rfl⟩ := Site.fromUser.inj hs
    exact ⟨h.tasks _ ht _ rfl, d, hd, rfl⟩
  case addPhoneNumber => subst hw; cases hs
  case locationStore => subst hw; cases hs
  case tap => obtain ⟨key', -, rfl⟩ := hw; cases hs
  case picQuery => obtain ⟨p, -, rfl⟩ := hw; cases hs

end

section
variable {debug : Bool} {ι : Type} [DecidableEq ι] {accounts : List Uid} {store : Store}
  {n : Fleet ι} {as : List (ι × Action)}

/-- What one step of a device adds to the history is filed. -/
theorem filed_step {i : ι} {s s' : App} {a : Action} {h : List (ι × Event)} (hm : Mailed s)
    (hl : Shared.eventsOf i h = s.log)
    (hp : ∀ id, s.profile id = profileAfter store h id) (hs : step debug s a = some s')
    {es : List Event} (hes : s'.log = s.log ++ es) :
    ∀ l₁ x l₂, es.map (i, ·) = l₁ ++ x :: l₂ → FiledAfter store (h ++ l₁) x := by
  rintro l₁ x l₂ heq key id fields hx
  obtain ⟨es₁, es₂, rfl, rfl, h₂⟩ := List.map_eq_append_iff.1 heq
  obtain ⟨e, es₃, rfl, rfl, -⟩ := List.map_eq_cons_iff.1 h₂
  have hissued : s'.issued = s.issued ++ (es₁ ++ e :: es₃).filterMap Event.issues := by
    rw [App.issued, hes, List.filterMap_append, App.issued]
  have hmem : (.fromUser key id, fields) ∈ (es₁ ++ e :: es₃).filterMap Event.issues :=
    List.mem_filterMap.2 ⟨e, by simp, hx⟩
  rcases issued_step hs with hi | ⟨j, t, w, rfl, ht, hw, hi⟩
  · rw [List.append_right_eq_self.1 (hissued.symm.trans hi)] at hmem
    cases hmem
  · rw [List.append_cancel_left (hissued.symm.trans hi)] at hmem
    obtain ⟨hsite, hfields⟩ := Prod.mk.inj (List.mem_singleton.1 hmem)
    obtain ⟨⟨y, hy, hyk⟩, d, hd, hf⟩ := hm.request (List.mem_of_getElem? ht) hw hsite.symm
    constructor
    · obtain ⟨e', he', hy'⟩ := List.mem_filterMap.1 hy
      have hh : (i, e') ∈ h := Shared.mem_eventsOf.1 (hl ▸ he')
      exact ⟨_, List.mem_append_left _ hh, rfl, by simp [hy', hyk]⟩
    · -- the step itself applies nothing
      have hquiet : ∀ e' ∈ es₁, e'.commits = none := fun e' he' => by
        rcases App.step_cases hs with ⟨-, es, hes', hb⟩ | ⟨_, ha, -⟩
        · rw [hes, List.append_cancel_left_eq] at hes'
          exact commits_of_not_isBackend (hb e' (hes' ▸ List.mem_append_left _ he'))
        · cases ha
      have hnone : (es₁.map (i, ·)).filterMap (·.2.commits) = [] := by
        rw [filterMap_tagged Event.commits, List.filterMap_eq_nil_iff.2 hquiet]
      refine ⟨d, ?_, hfields.trans hf⟩
      rw [profileAfter, List.filterMap_append, hnone, List.append_nil, ← profileAfter, ← hp, hd]

omit [DecidableEq ι] in
theorem profileAfter_step {i : ι} {s s' : App} {a : Action} {h : List (ι × Event)} {id : Seg}
    (hp : s.profile id = profileAfter store h id) (hs : step debug s a = some s') :
    s'.profile id =
      profileAfter store (h ++ (Shared.news (device debug) s s').map (i, ·)) id := by
  rw [profileAfter, List.filterMap_append, filterMap_tagged Event.commits]
  rcases step_news hs with ⟨hst, hn⟩ | ⟨w, -, ha, hst, hn⟩ <;> rw [hn, App.profile, hst]
  · rw [List.append_nil]
    exact hp
  · exact lookup_merged hp ha

/-- **Requests.**  In every run of a fleet every request that is issued has the
    header of its mailbox before it, from the same device, and is a copy of the
    profile that the backend holds for its user at that moment. -/
theorem filed_of_run (hr : run (Fleet.step debug) (Fleet.launch accounts store) as = some n) :
    Shared.Preceded (FiledAfter store) n.history := by
  have h := Shared.run_shared (M := device debug) (n := Fleet.launch accounts store)
    (J := fun _ : ι => Mailed) (G := fun _ _ => True)
    (H := fun b h => (∀ id, b.store.lookup (usersInfo id) = profileAfter store h id) ∧
      Shared.Preceded (FiledAfter store) h)
    (fun _ _ _ _ h hs => ⟨h.step hs, trivial⟩) (fun _ _ _ h _ => ⟨h.books, h.tasks, h.pending⟩)
    (fun i s a s' h hm hl hH hs => ⟨?_, ?_⟩) (fun _ => .launch accounts store) (fun _ => rfl)
    ⟨fun _ => rfl, fun l₁ e l₂ h => by simp [Fleet.launch] at h⟩ hr
  · exact h.2
  · exact fun id => profileAfter_step (hH.1 id) hs
  · exact hH.2.append (filed_step hm hl hH.1 hs (Shared.log_eq_append_news hs))

/-- A document at the path of a request is an old one, or an applied write. -/
theorem request_written (hr : run (Fleet.step debug) (Fleet.launch accounts store) as = some n)
    {key : String} {id : Seg} {d : Doc} (hd : n.shared.store.lookup (fromUser key id) = some d) :
    store.lookup (fromUser key id) = some d ∨
      ∃ x ∈ n.committed, x.1.path = fromUser key id ∧ d = merge emptyDoc x.2 := by
  refine committed_invariant (H := fun st ws => ∀ d, st.lookup (fromUser key id) = some d →
    store.lookup (fromUser key id) = some d ∨
      ∃ x ∈ ws, x.1.path = fromUser key id ∧ d = merge emptyDoc x.2)
    (fun st ws w h ha d hd => ?_) (fun _ h => Or.inl h) hr d hd
  by_cases hp : fromUser key id = w.site.path
  · refine Or.inr ⟨w.content, by simp, hp.symm, ?_⟩
    rw [lookup_write_request hp] at hd
    exact (Option.some.inj hd).symm
  · rw [w.site.lookup_write_of_ne _ _ hp] at hd
    refine (h d hd).imp_right ?_
    rintro ⟨x, hx, hx'⟩
    exact ⟨x, List.mem_append_left _ hx, hx'⟩

/-- **Stored requests.**  A document at the path of a request was there at the
    start; or it copies the profile of its user at some moment of the run, when a
    device that had issued the header of its mailbox read it and, in the same step,
    issued the request; or it is the header of another mailbox, whose key leads to
    the same path. -/
theorem request_of_run (hr : run (Fleet.step debug) (Fleet.launch accounts store) as = some n)
    {key : String} {id : Seg} {d : Doc} (hd : n.shared.store.lookup (fromUser key id) = some d) :
    store.lookup (fromUser key id) = some d ∨
      (∃ l₁ x l₂ profile, n.history = l₁ ++ x :: l₂ ∧
        x.2.issues = some (.fromUser key id, fromUserFields profile) ∧
        (∃ header ∈ l₁, header.1 = x.1 ∧ header.2.issues.map Prod.fst = some (.laborRequest key)) ∧
        profileAfter store l₁ id = some profile ∧ d = merge emptyDoc (fromUserFields profile)) ∨
      ∃ other labor, laborRequests other = fromUser key id ∧
        d = merge emptyDoc (laborRequestFields labor) := by
  refine (request_written hr hd).imp_right ?_
  rintro ⟨⟨site, fields⟩, hx, hp, rfl⟩
  obtain ⟨j, e, he, hc⟩ := mem_committed.1 hx
  have hissued := issued_of_mem_history hr he hc
  obtain ⟨w, hw, hf⟩ := formed_of_issued hr j _ hissued
  obtain ⟨rfl, rfl⟩ := Prod.mk.inj hw
  have hf := hf.fields
  unfold Write.FieldsOfSite at hf
  cases hs : w.site <;> rw [hs] at hf hp hissued
  case registration => exact absurd hp (usersInfo_ne_laborRequests _ _ _)
  case location => exact absurd hp (usersInfo_ne_laborRequests _ _ _)
  case picture => exact absurd hp (usersInfo_ne_laborRequests _ _ _)
  case laborRequest other =>
    obtain ⟨labor, hl⟩ := hf
    exact Or.inr ⟨other, labor, hp, by rw [hl]⟩
  case fromUser key' id' =>
    obtain ⟨rfl, rfl⟩ : key' = key ∧ id' = id := fromUser_inj.1 hp
    -- the moment when the write was issued
    obtain ⟨profile, hf⟩ := hf
    obtain ⟨who, hlog⟩ := mem_issued.1 hissued
    have hmem : (j, .issued (.fromUser key' id') w.fields who) ∈ n.history := by
      rw [← eventsOf_history hr j] at hlog
      exact Shared.mem_eventsOf.1 hlog
    obtain ⟨l₁, l₂, hsplit⟩ := List.append_of_mem hmem
    obtain ⟨hheader, profile', hp', hf'⟩ := filed_of_run hr l₁ _ l₂ hsplit key' id' w.fields rfl
    exact Or.inl ⟨l₁, _, l₂, profile', hsplit, by rw [hf']; rfl, hheader, hp', by rw [← hf']⟩

theorem request_twoDevices :
    ∃ n : Fleet ℕ, run (Fleet.step true) (Fleet.launch [] ∅) twoDevices = some n ∧
      ∃ d, n.shared.store.lookup (fromUser "Mason7" (.name "A")) = some d ∧
        ((∅ : Store).lookup (fromUser "Mason7" (.name "A")) = some d ∨
        (∃ l₁ x l₂ profile, n.history = l₁ ++ x :: l₂ ∧
          x.2.issues = some (.fromUser "Mason7" (.name "A"), fromUserFields profile) ∧
          (∃ header ∈ l₁, header.1 = x.1 ∧
            header.2.issues.map Prod.fst = some (.laborRequest "Mason7")) ∧
          profileAfter ∅ l₁ (.name "A") = some profile ∧
          d = merge emptyDoc (fromUserFields profile)) ∨
        ∃ other labor, laborRequests other = fromUser "Mason7" (.name "A") ∧
          d = merge emptyDoc (laborRequestFields labor)) :=
  ⟨_, rfl, _, rfl, @request_of_run true ℕ _ [] ∅ _ twoDevices rfl "Mason7" (.name "A") _ rfl⟩

end
end Mazdoor
