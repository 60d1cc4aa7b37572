/-
  The taps of a fleet as runs of the request model.

  `Requests` has one step for what is a continuation, a pending write, its answer
  and a callback in `App`, and knows nothing of preferences and relaunches.

  * `AtStage`: the tap and the stage that a continuation or a pending write of a
    device stands for; `App.threads`: all that a device has of them;
  * `step_simulated`: a step of a device is a run of the request model;
  * `requests_of_run`: every run of a fleet is one, on the same documents;
  * `mailbox_of_run`: what holds of the request model holds of the fleet.
-/
import Mathlib.Algebra.Order.Group.Multiset
import Mazdoor.Lib.Matching
import Mazdoor.Work
import Mazdoor.RequestActions

namespace Mazdoor

open Transition Matching

/-! ## Threads -/

/-- A continuation and the stage that it stands for. -/
def Task.AtStage (p : Tap × Stage) : Task → Prop
  | .tapHeader key _ uid | .tapProfile key _ uid =>
    p.1.labor.key = some key ∧ p.2 = .profile key ∧ p.1.currentUserId = uid
  | _ => False

/-- A pending write and the stage that it stands for. -/
def Write.AtStage (p : Tap × Stage) (w : Write) : Prop :=
  match w.site with
  | .laborRequest key => p.1.labor.key = some key ∧ p.2 = .header ∧
      w.fields = laborRequestFields p.1.labor ∧
      ∀ t, t ∈ w.onDone ∨ t ∈ w.onError → t.AtStage (p.1, .profile key)
  | .fromUser key id => p.1.labor.key = some key ∧
      (∃ u ∈ p.1.currentUserId, id = .name u ∧
        ∃ d, p.2 = .request key u d ∧ w.fields = fromUserFields d) ∧
      w.onDone = none ∧ w.onError = none
  | _ => False

/-- What is under way for a tap and the stage that it stands for. -/
def AtStage (p : Tap × Stage) : Task ⊕ Write → Prop :=
  Sum.elim (Task.AtStage p) (Write.AtStage p)

/-- What is under way for the taps, in these tasks and writes. -/
def live (ts : List Task) (ws : List Write) : Multiset (Task ⊕ Write) :=
  ((ts.filter (·.mailbox.isSome)).map Sum.inl : List (Task ⊕ Write)) +
    ((ws.filter (·.site.user.isNone)).map Sum.inr : List (Task ⊕ Write))

def App.threads (s : App) : Multiset (Task ⊕ Write) := live s.tasks s.pending

/-- The paths that a tap writes to are those of documents. -/
def Tap.OfDocuments (t : Tap) : Prop :=
  ∀ key ∈ t.labor.key, isDocument (laborRequests key) ∧
    ∀ u ∈ t.currentUserId, isDocument (fromUser key (.name u))

/-- A thread of device `i` and the tap that it stands for. -/
def Owned {ι : Type} (i : ι) (x : Task ⊕ Write) (p : ι × Tap × Stage) : Prop :=
  p.1 = i ∧ p.2.1.OfDocuments ∧ AtStage p.2 x

section
variable {debug : Bool} {s s' : App} {t t' : Task} {r : Reply} {a : Action} {w : Write}

theorem live_append (ts ts' : List Task) (ws ws' : List Write) :
    live (ts ++ ts') (ws ++ ws') = live ts ws + live ts' ws' := by
  simp only [live, List.filter_append, List.map_append, ← Multiset.coe_add]
  exact add_add_add_comm _ _ _ _

theorem live_eq_zero {ts : List Task} {ws : List Write} (ht : ∀ t ∈ ts, t.mailbox = none)
    (hw : ∀ w ∈ ws, w.site.user.isSome) : live ts ws = 0 := by
  rw [live, List.filter_eq_nil_iff.2 fun t h => by simp [ht t h],
    List.filter_eq_nil_iff.2 fun w h => by simp [Option.isSome_iff_ne_none.1 (hw w h)]]
  rfl

theorem live_nil : live [] [] = 0 := rfl

theorem live_task (h : t.mailbox.isSome) : live [t] [] = {.inl t} := by
  simp [live, h]

theorem live_write (h : w.site.user = none) : live [] [w] = {.inr w} := by
  simp [live, h]

theorem live_perm {ts ts' : List Task} {ws ws' : List Write} (ht : ts.Perm ts')
    (hw : ws.Perm ws') : live ts ws = live ts' ws' :=
  congrArg₂ (· + ·) (Multiset.coe_eq_coe.2 ((ht.filter _).map _))
    (Multiset.coe_eq_coe.2 ((hw.filter _).map _))

theorem threads_dequeue {i : ℕ} (ht : s.tasks[i]? = some t) :
    s.threads = live [t] [] + (s.dequeue i).threads := by
  obtain ⟨hi, rfl⟩ := List.getElem?_eq_some_iff.1 ht
  rw [App.threads, App.threads, ← live_append]
  exact live_perm (List.getElem_cons_eraseIdx_perm hi).symm (List.Perm.refl _)

theorem threads_answer {j : ℕ} (hw : s.pending[j]? = some w) :
    s.threads = live [] [w] + (s.answer j).threads := by
  obtain ⟨hj, rfl⟩ := List.getElem?_eq_some_iff.1 hw
  rw [App.threads, App.threads, ← live_append]
  exact live_perm (List.Perm.refl _) (List.getElem_cons_eraseIdx_perm hj).symm

theorem threads_of {ts : List Task} {ws : List Write} (ht : s'.tasks = s.tasks ++ ts)
    (hw : s'.pending = s.pending ++ ws) : s'.threads = live ts ws + s.threads := by
  rw [App.threads, ht, hw, live_append, Multiset.add_comm, App.threads]

/-- Only the continuations of taps go on to mailboxes. -/
theorem mailbox_of_successors (h : t.mailbox = none) (ht : t' ∈ t.successors s r) :
    t'.mailbox = none := by
  unfold Task.successors at ht
  split at ht
  case h_16 k who uid => cases k <;> simp_all [Task.mailbox]
  case h_22 u who => cases hu : s.auth <;> simp_all [Task.mailbox]
  case h_17 => cases h
  all_goals simp only [List.mem_cons, List.not_mem_nil, or_false] at ht
  all_goals first
    | exact ht.elim
    | (subst ht; rfl)
    | (rcases ht with rfl | rfl <;> rfl)

theorem mailbox_of_tasks {k d : ℕ} (ht : t ∈ a.tasks s k d) : t.mailbox = none := by
  unfold Action.tasks at ht
  split at ht <;> simp only [List.mem_cons, List.not_mem_nil, or_false] at ht
  all_goals first
    | exact ht.elim
    | (subst ht; rfl)
    | (rcases ht with rfl | rfl <;> rfl)

/-- The other operations write to profiles. -/
theorem user_of_issues (h : t.Issues s w) (hm : t.mailbox = none)
    (ht : ∀ labor who, t ≠ .tap labor who) : w.site.user.isSome := by
  cases t <;> simp only [Task.Issues] at h
  case addPhoneNumber => subst h; rfl
  case locationStore => subst h; rfl
  case tap labor who => exact absurd rfl (ht labor who)
  case tapProfile => cases hm
  case picQuery => obtain ⟨p, -, rfl⟩ := h; rfl

end

/-! ## Steps -/

/-- A step of device `i` as a run of the request model: `l` and `l'` are the taps
    of all devices before and after it, and `ws` what the backend applies. -/
structure Simulated {ι : Type} (i : ι) (P : Labor → Prop) (s s' : App) (ws : List (Site × Fields))
    (l l' : List (ι × Tap × Stage)) (bs : List RequestAction) : Prop where
  run : run Requests.act ⟨s.store, l.map Prod.snd⟩ bs = some ⟨s'.store, l'.map Prod.snd⟩
  own : Matched (Owned i) s'.threads l'
  others : ∀ k ≠ i, ∀ xs, Matched (Owned k) xs l → Matched (Owned k) xs l'
  taps : ∀ t, .tap t ∈ bs → P t.labor
  profiles : bs.filterMap RequestAction.profileWrite = ws.filter (·.1.user.isSome)

section
variable {debug : Bool} {ι : Type} {i : ι} {P : Labor → Prop} {s s' : App} {t : Task} {r : Reply}
  {a : Action} {w : Write} {l : List (ι × Tap × Stage)} {ws : List (Site × Fields)}
  {x y : Task ⊕ Write} {xs : Multiset (Task ⊕ Write)}

/-- Nothing happens to the documents. -/
theorem Simulated.stay (hst : s'.store = s.store) (h : Matched (Owned i) s'.threads l)
    (hws : ws.filter (·.1.user.isSome) = []) : Simulated i P s s' ws l l [] where
  run := by rw [hst]; rfl
  own := h
  others _ _ _ h := h
  taps _ h := absurd h List.not_mem_nil
  profiles := hws.symm

theorem Simulated.profile (h : Matched (Owned i) s'.threads l) (hu : w.site.user.isSome)
    (ha : w.site.accepted s.store) (hst : s'.store = w.site.write s.store w.fields) :
    Simulated i P s s' [w.content] l l [.profile w.site w.fields] where
  run := by rw [hst]; simp [Transition.run, Requests.act, hu, ha]
  own := h
  others _ _ _ h := h
  taps t h := by simp at h
  profiles := by simp [Write.content, RequestAction.profileWrite, hu]

/-- A tap begins. -/
theorem Simulated.tap {T : Tap} (h : Matched (Owned i) s.threads l) (hT : T.OfDocuments)
    (hx : AtStage (T, .header) x)
    (hth : s'.threads = x ::ₘ s.threads) (hst : s'.store = s.store) (hP : P T.labor) :
    Simulated i P s s' [] l (l ++ [(i, T, .header)]) [.tap T] where
  run := by rw [hst]; simp [Transition.run, Requests.act]
  own := hth ▸ h.push ⟨rfl, hT, hx⟩
  others _ _ _ h := h.append _
  taps t h := by
    obtain rfl : t = T := by simpa using h
    exact hP
  profiles := rfl

/-- **A thread moves** with its tap, and ends or goes on. -/
theorem exists_simulated (h : Matched (Owned i) (x ::ₘ xs) l) (o : Outcome)
    (hws : ws.filter (·.1.user.isSome) = [])
    (hadv : ∀ T g, T.OfDocuments → AtStage (T, g) x →
      ∃ g', T.advance s.store g o = some (s'.store, g') ∧
        (s'.threads = xs ∨ ∃ y, s'.threads = y ::ₘ xs ∧ AtStage (T, g') y)) :
    ∃ l' bs, Simulated i P s s' ws l l' bs := by
  obtain ⟨j, ⟨i', T, g⟩, hj, ⟨hi, hT, hx⟩, hset⟩ := h.advance
  obtain rfl : i' = i := hi
  obtain ⟨g', ha, hth⟩ := hadv T g hT hx
  have hj' : (l.map Prod.snd)[j]? = some (T, g) := by rw [List.getElem?_map, hj]; rfl
  refine ⟨l.set j (i', T, g'), [.advance j o], ?_, ?_, ?_, ?_, ?_⟩
  · have hadv : Requests.advance o s.store (T, g) = some (s'.store, T, g') := by
      rw [Requests.advance, ha]
      rfl
    have hstep := Interleave.step_of_advance (s := ⟨s.store, l.map Prod.snd⟩) hj' hadv
    refine run_cons.2 ⟨_, hstep, ?_⟩
    rw [List.map_set]
    rfl
  · obtain ⟨hrest, hgo⟩ := hset (i', T, g')
    rcases hth with hth | ⟨y, hth, hy⟩ <;> rw [hth]
    · exact hrest
    · exact hgo y ⟨rfl, hT, hy⟩
  · exact fun k hk xs h => h.set_of_not hj (fun x hx => hk hx.1.symm) _
  · intro t h
    simp at h
  · rw [hws]
    rfl

/-- What a device's taps rest on: the labors that were tapped, a uid that is not
    empty, and headers as the only writes that go on to a mailbox. -/
structure Tapping (P : Labor → Prop) (s : App) : Prop where
  formed : s.Formed
  uid : ∀ u, s.Holds u → u ≠ ""
  labor : ∀ labor who, .tap labor who ∈ s.tasks → P labor
  callbacks : ∀ w ∈ s.pending, ∀ t, t ∈ w.onDone ∨ t ∈ w.onError → ∀ key ∈ t.mailbox,
    w.site = .laborRequest key

theorem isDocument_fromUser {key : String} {u : Uid} (hk : isDocument (laborRequests key))
    (hu : u ≠ "") : isDocument (fromUser key (.name u)) := by
  simp only [isDocument, decide_eq_true_eq] at hk
  simp only [isDocument, fromUser, decide_eq_true_eq, List.length_append, List.mem_append, not_or]
  exact ⟨by simpa using hk.1, hk.2, by simp [hu.symm]⟩

/-! ### Continuations -/

section
variable {n : ℕ} (h : Matched (Owned i) s.threads l) (ht : s.tasks[n]? = some t)
  (hr : App.resume debug (s.dequeue n) t r = some s')
include ht hr

/-- A continuation replaces its thread by what it starts and issues. -/
theorem threads_resume : ∃ (ts : List Task) (x : Option Write),
    ts.Sublist (t.successors (s.dequeue n) r) ∧ (∀ w ∈ x, t.Issues (s.dequeue n) w) ∧
      s'.store = s.store ∧ s.threads = live [t] [] + (s.dequeue n).threads ∧
      s'.threads = live ts x.toList + (s.dequeue n).threads := by
  obtain ⟨ts, hts, hsub⟩ := resume_successors hr
  obtain ⟨x, hp, -, hx⟩ := (App.resume_resumed hr).issued_eq
  exact ⟨ts, x, hsub, fun w hw => (hx w hw).1, (App.resume_resumed hr).store, threads_dequeue ht,
    threads_of hts hp⟩

include h

theorem resume_tap {labor : Labor} {who : Option Uid} (hl : t = .tap labor who)
    (hT : Tapping P s) (hP : ∀ labor, P labor → ∀ key ∈ labor.key, isDocument (laborRequests key)) :
    ∃ l' bs, Simulated i P s s' [] l l' bs := by
  subst hl
  obtain ⟨ts, x, hsub, hx, hst, hs, hs'⟩ := threads_resume ht hr
  obtain rfl := List.sublist_nil.1 hsub
  rw [live_eq_zero (by simp [Task.mailbox]) (by simp), Multiset.zero_add] at hs
  rw [← hs] at hs'
  cases x with
  | none =>
    rw [Option.toList_none, live_nil, Multiset.zero_add] at hs'
    exact ⟨l, [], .stay hst (hs' ▸ h) rfl⟩
  | some w =>
    obtain ⟨key, hkey, rfl⟩ := hx w rfl
    have hlabor : P labor := hT.labor labor who (List.mem_of_getElem? ht)
    rw [Option.toList_some, live_write rfl, Multiset.singleton_add] at hs'
    refine ⟨_, _, .tap (T := ⟨labor, s.prefs.currentUserId⟩) h ?_ ?_ hs' hst hlabor⟩
    · intro key hk
      have hdoc := hP labor hlabor key hk
      exact ⟨hdoc, fun u hu => isDocument_fromUser hdoc (hT.uid u (.key hu))⟩
    · refine ⟨hkey, rfl, rfl, fun t ht => ?_⟩
      obtain rfl : .tapHeader key who s.prefs.currentUserId = t := by simpa using ht
      exact ⟨hkey, rfl, rfl⟩

theorem resume_tapHeader {key : String} {who uid : Option Uid} (hl : t = .tapHeader key who uid) :
    ∃ l' bs, Simulated i P s s' [] l l' bs := by
  subst hl
  obtain ⟨ts, x, hsub, hx, hst, hs, hs'⟩ := threads_resume ht hr
  obtain rfl : x = none := Option.eq_none_iff_forall_not_mem.2 hx
  rw [hs, live_task rfl, Multiset.singleton_add] at h
  have hts : ts = [] ∨ ts = [.tapProfile key who uid] := by
    cases r <;> first
      | exact List.sublist_singleton.1 hsub
      | exact Or.inl (List.sublist_nil.1 hsub)
  rcases hts with rfl | rfl
  · rw [Option.toList_none, live_nil, Multiset.zero_add] at hs'
    exact ⟨l, [], .stay hst (hs' ▸ h.erase) rfl⟩
  · rw [Option.toList_none, live_task rfl, Multiset.singleton_add] at hs'
    exact ⟨l, [], .stay hst (hs' ▸ h.replace fun _ hp => hp) rfl⟩

theorem resume_tapProfile {key : String} {who uid : Option Uid}
    (hl : t = .tapProfile key who uid) : ∃ l' bs, Simulated i P s s' [] l l' bs := by
  subst hl
  obtain ⟨ts, x, hsub, hx, hst, hs, hs'⟩ := threads_resume ht hr
  obtain rfl := List.sublist_nil.1 hsub
  rw [hs, live_task rfl, Multiset.singleton_add] at h
  cases x with
  | none =>
    rw [Option.toList_none, live_nil, Multiset.zero_add] at hs'
    exact ⟨l, [], .stay hst (hs' ▸ h.erase) rfl⟩
  | some w =>
    obtain ⟨u, hu, d, hd, rfl⟩ := hx w rfl
    rw [Option.toList_some, live_write rfl, Multiset.singleton_add] at hs'
    refine exists_simulated h .success rfl ?_
    rintro T g - ⟨hkey, hg, huid⟩
    obtain rfl : g = .profile key := hg
    have hu : u ∈ T.currentUserId := huid ▸ hu
    have hd : s.store.lookup (usersInfo (.name u)) = some d := hd
    exact ⟨.request key u d, by simp [Tap.advance, Tap.profile_eq hu hd, hst],
      Or.inr ⟨_, hs', hkey, ⟨u, hu, rfl, d, rfl, rfl⟩, rfl, rfl⟩⟩

theorem resume_simulated (hT : Tapping P s)
    (hP : ∀ labor, P labor → ∀ key ∈ labor.key, isDocument (laborRequests key)) :
    ∃ l' bs, Simulated i P s s' [] l l' bs := by
  by_cases htap : ∃ labor who, t = .tap labor who
  · obtain ⟨labor, who, hl⟩ := htap
    exact resume_tap h ht hr hl hT hP
  by_cases hm : t.mailbox = none
  · -- another operation
    obtain ⟨ts, x, hsub, hx, hst, hs, hs'⟩ := threads_resume ht hr
    rw [live_eq_zero (fun t' ht' => mailbox_of_successors hm (hsub.subset ht')) fun w hw =>
      user_of_issues (hx w (Option.mem_toList.1 hw)) hm fun labor who hl => htap ⟨labor, who, hl⟩,
      Multiset.zero_add] at hs'
    rw [hs, live_eq_zero (by simpa using hm) (by simp), Multiset.zero_add] at h
    exact ⟨l, [], .stay hst (hs' ▸ h) rfl⟩
  cases t with
  | tapHeader key who uid => exact resume_tapHeader h ht hr rfl
  | tapProfile key who uid => exact resume_tapProfile h ht hr rfl
  | _ => exact absurd rfl hm

end

/-! ### Answers -/

theorem atStage_laborRequest {p : Tap × Stage} {key : String} (hs : w.site = .laborRequest key)
    (h : AtStage p (.inr w)) : p.1.labor.key = some key ∧ p.2 = .header ∧
      w.fields = laborRequestFields p.1.labor ∧
      ∀ t, t ∈ w.onDone ∨ t ∈ w.onError → t.AtStage (p.1, .profile key) := by
  rw [AtStage, Sum.elim_inr, Write.AtStage, hs] at h
  exact h

theorem atStage_fromUser {p : Tap × Stage} {key : String} {id : Seg}
    (hs : w.site = .fromUser key id) (h : AtStage p (.inr w)) : p.1.labor.key = some key ∧
      (∃ u ∈ p.1.currentUserId, id = .name u ∧
        ∃ d, p.2 = .request key u d ∧ w.fields = fromUserFields d) ∧
      w.onDone = none ∧ w.onError = none := by
  rw [AtStage, Sum.elim_inr, Write.AtStage, hs] at h
  exact h

/-- A header's callback goes on with its tap. -/
theorem threads_callback {c : Option Task} {p : Tap × Stage} (hc : ∀ t ∈ c, t.AtStage p)
    (hs' : s'.threads = live c.toList [] + xs) :
    s'.threads = xs ∨ ∃ y, s'.threads = y ::ₘ xs ∧ AtStage p y := by
  cases c with
  | none => exact Or.inl (by rw [hs', Option.toList_none, live_nil, Multiset.zero_add])
  | some t =>
    have ht : t.AtStage p := hc t rfl
    have hm : t.mailbox.isSome := by
      cases t <;> first
        | rfl
        | exact ht.elim
    refine Or.inr ⟨.inl t, ?_, ht⟩
    rw [hs', Option.toList_some, live_task hm, Multiset.singleton_add]

section
variable {n : ℕ} (h : Matched (Owned i) s.threads l) (hT : Tapping P s)
  (hw : s.pending[n]? = some w)
include h hT hw

/-- The callback of another write goes on to no mailbox. -/
theorem live_callback {c : Option Task} (hu : w.site.user.isSome)
    (hc : ∀ t ∈ c, t ∈ w.onDone ∨ t ∈ w.onError) : live c.toList [] = 0 ∧
      Matched (Owned i) (s.answer n).threads l := by
  constructor
  · refine live_eq_zero (fun t ht => Option.eq_none_iff_forall_not_mem.2 fun key hk => ?_) (by simp)
    have hs := hT.callbacks w (List.mem_of_getElem? hw) t (hc t (Option.mem_toList.1 ht)) key hk
    rw [hs] at hu
    cases hu
  · rwa [threads_answer hw, live_eq_zero (by simp) (by simpa using hu), Multiset.zero_add] at h

theorem commit_simulated (ha : w.site.accepted s.store) :
    ∃ l' bs, Simulated i P s ((s.answer n).commit w) [w.content] l l' bs := by
  have hs' : ((s.answer n).commit w).threads = live w.onDone.toList [] + (s.answer n).threads :=
    threads_of rfl (List.append_nil _).symm
  by_cases hu : w.site.user.isSome
  · obtain ⟨hc, h⟩ := live_callback h hT hw hu fun t ht => Or.inl ht
    rw [hc, Multiset.zero_add] at hs'
    exact ⟨l, _, .profile (hs' ▸ h) hu ha rfl⟩
  have hws : [w.content].filter (·.1.user.isSome) = [] := by simpa [Write.content] using hu
  rw [threads_answer hw, live_write (by simpa using hu), Multiset.singleton_add] at h
  refine exists_simulated h .success hws fun T g hdoc hx => ?_
  cases hsite : w.site with
  | registration | location | picture => simp [hsite, Site.user] at hu
  | laborRequest key =>
    obtain ⟨hkey, hg, hf, hc⟩ := atStage_laborRequest hsite hx
    obtain rfl : g = .header := hg
    have hkey : T.labor.key = some key := hkey
    have hdoc : isDocument (laborRequests key) := (hdoc key hkey).1
    refine ⟨.profile key, ?_, threads_callback (fun t ht => hc t (Or.inl ht)) hs'⟩
    simp [Tap.advance, hkey, hdoc, hsite, hf]
  | fromUser key id =>
    obtain ⟨hkey, ⟨u, hu, rfl, d, hg, hf⟩, hd, -⟩ := atStage_fromUser hsite hx
    obtain rfl : g = .request key u d := hg
    have hdoc : isDocument (fromUser key (.name u)) := (hdoc key hkey).2 u hu
    rw [hd, Option.toList_none, live_nil, Multiset.zero_add] at hs'
    exact ⟨.finished, by simp [Tap.advance, hdoc, hsite, hf], Or.inl hs'⟩

theorem reject_simulated :
    ∃ l' bs, Simulated i P s ((s.answer n).spawnAll w.onError.toList) [] l l' bs := by
  have hs' : ((s.answer n).spawnAll w.onError.toList).threads =
      live w.onError.toList [] + (s.answer n).threads := threads_of rfl (List.append_nil _).symm
  by_cases hu : w.site.user.isSome
  · obtain ⟨hc, h⟩ := live_callback h hT hw hu fun t ht => Or.inr ht
    rw [hc, Multiset.zero_add] at hs'
    exact ⟨l, [], .stay rfl (hs' ▸ h) rfl⟩
  rw [threads_answer hw, live_write (by simpa using hu), Multiset.singleton_add] at h
  refine exists_simulated h .failure rfl fun T g hdoc hx => ?_
  cases hsite : w.site with
  | registration | location | picture => simp [hsite, Site.user] at hu
  | laborRequest key =>
    obtain ⟨hkey, hg, -, hc⟩ := atStage_laborRequest hsite hx
    obtain rfl : g = .header := hg
    have hkey : T.labor.key = some key := hkey
    refine ⟨.profile key, ?_, threads_callback (fun t ht => hc t (Or.inr ht)) hs'⟩
    simp [Tap.advance, hkey]
  | fromUser key id =>
    obtain ⟨-, ⟨u, -, -, d, hg, -⟩, -, he⟩ := atStage_fromUser hsite hx
    obtain rfl : g = .request key u d := hg
    rw [he] at hs' ⊢
    rw [Option.toList_none, live_nil, Multiset.zero_add] at hs'
    exact ⟨.finished, rfl, Or.inl hs'⟩

end

/-- A write as a restart leaves it. -/
def Write.drop (w : Write) : Write := { w with onDone := none, onError := none }

theorem owned_drop {p : ι × Tap × Stage} (h : Owned i x p) :
    Owned i (x.map id Write.drop) p := by
  obtain ⟨hi, hdoc, hx⟩ := h
  refine ⟨hi, hdoc, ?_⟩
  cases x with
  | inl t => exact hx
  | inr w =>
    cases hs : w.site with
    | registration | location | picture =>
      rw [AtStage, Sum.elim_inr, Write.AtStage, hs] at hx
      exact hx.elim
    | laborRequest key =>
      obtain ⟨hkey, hg, hf, -⟩ := atStage_laborRequest hs hx
      rw [AtStage, Sum.map_inr, Sum.elim_inr, Write.AtStage, show w.drop.site = _ from hs]
      exact ⟨hkey, hg, hf, by simp [Write.drop]⟩
    | fromUser key id =>
      obtain ⟨hkey, hf, -⟩ := atStage_fromUser hs hx
      rw [AtStage, Sum.map_inr, Sum.elim_inr, Write.AtStage, show w.drop.site = _ from hs]
      exact ⟨hkey, hf, rfl, rfl⟩

/-- A restart loses the continuations, and the callbacks of the writes. -/
theorem matched_relaunch (h : Matched (Owned i) s.threads l) :
    Matched (Owned i) s.relaunch.threads l := by
  have hs : s.threads = live s.tasks [] + live [] s.pending := by
    rw [← live_append, List.append_nil]
    rfl
  have hs' : s.relaunch.threads = (live [] s.pending).map (Sum.map id Write.drop) := by
    have hf : s.relaunch.pending = s.pending.map Write.drop := rfl
    rw [App.threads, hf]
    simp only [live, List.filter_map, Multiset.map_add, Multiset.map_coe, List.map_map]
    rfl
  rw [hs] at h
  rw [hs']
  exact h.of_add.map fun _ _ => owned_drop

/-- **A step** of a device is a run of the request model. -/
theorem step_simulated (h : Matched (Owned i) s.threads l) (hT : Tapping P s)
    (hP : ∀ labor, P labor → ∀ key ∈ labor.key, isDocument (laborRequests key))
    (hs : step debug s a = some s') :
    ∃ l' bs, Simulated i P s s' ((Shared.news (device debug) s s').filterMap Event.commits)
      l l' bs := by
  cases App.step_stepped hs with
  | tap ha ht =>
    rw [news_quiet hs fun j hj => by rw [hj] at ha; cases ha]
    obtain ⟨k, d, ts, hts, hsub⟩ := tap_tasks ha hs
    have hs' := threads_of hts (ht.pending.trans (List.append_nil _).symm)
    rw [live_eq_zero (fun t ht => mailbox_of_tasks (hsub.subset ht)) (by simp),
      Multiset.zero_add] at hs'
    exact ⟨l, [], .stay ht.store (hs' ▸ h) rfl⟩
  | relaunch =>
    rw [news_quiet hs (by simp)]
    exact ⟨l, [], .stay rfl (matched_relaunch h) rfl⟩
  | dispose | located =>
    rw [news_quiet hs (by simp)]
    exact ⟨l, [], .stay rfl h rfl⟩
  | @geocode k p =>
    rw [news_quiet hs (by simp)]
    have hs' : ((s.emit (.position p)).spawn (.geocode k p)).threads = live [.geocode k p] [] +
        s.threads := threads_of rfl (List.append_nil _).symm
    rw [live_eq_zero (by simp [Task.mailbox]) (by simp), Multiset.zero_add] at hs'
    exact ⟨l, [], .stay rfl (hs' ▸ h) rfl⟩
  | resume ht hr =>
    rw [news_quiet hs (by simp)]
    exact resume_simulated h ht hr hT hP
  | commit hw ha =>
    rw [news_commit]
    exact commit_simulated h hT hw ha
  | reject hw =>
    rw [news_quiet hs (by simp)]
    exact reject_simulated h hT hw

end

/-! ## Runs -/

/-- The documents that an action makes the app address have paths. -/
def Action.OfDocuments : Action → Prop
  | .tapMarker labor => ∀ key ∈ labor.key, isDocument (laborRequests key)
  | .resume _ (.credential uid) => uid ≠ ""
  | _ => True

instance (a : Action) : Decidable a.OfDocuments := by
  unfold Action.OfDocuments
  split <;> infer_instance

section
variable {debug : Bool} {P : Labor → Prop} {s s' : App} {t : Task} {r : Reply} {a : Action}

theorem holds_ne (h : ∀ u, s.Holds u → u ≠ "") (ha : a.OfDocuments)
    (hs : step debug s a = some s') {u : Uid} (hu : s'.Holds u) : u ≠ "" := by
  rcases holds_step hs hu with hu | ⟨hn, hm⟩
  · exact h u hu
  · rcases App.mem_accounts_step hs hm with hm | ⟨i, rfl⟩
    · exact absurd hm hn
    · exact ha

theorem Tapping.launch (accounts : List Uid) (store : Store) :
    Tapping P (App.launch accounts store) where
  formed := App.formed_launch _ _
  uid u hu := absurd (Or.inl ⟨u, rfl, hu⟩) (not_owns_launch accounts store (.name u))
  labor _ _ h := by simp at h
  callbacks _ h := by cases h

theorem Tapping.on (h : Tapping P s) (b : Backend) : Tapping P (s.on b) :=
  ⟨h.formed, fun u hu => h.uid u (Holds.on hu), h.labor, h.callbacks⟩

theorem Tapping.step (h : Tapping P s) (ha : a.OfDocuments)
    (hP : ∀ labor, a = .tapMarker labor → P labor) (hs : Mazdoor.step debug s a = some s') :
    Tapping P s' := by
  refine ⟨h.formed.step hs, fun u hu => holds_ne h.uid ha hs hu, fun labor who ht => ?_,
    fun w hw t ht key hk => ?_⟩
  · rcases App.step_tasks hs _ ht with ht | ht
    · exact h.labor labor who ht
    cases ht with
    | spawned i r _ _ hsp =>
      unfold Task.Spawns at hsp
      split at hsp <;> simp at hsp
    | started ht =>
      obtain ⟨-, sc, ht⟩ := ht
      cases App.isInit_of_mem_initTasks ht
    | done j _ hw ht => cases (h.formed _ (List.mem_of_getElem? hw)).callbacks _ (Or.inl ht)
    | error j _ hw ht => cases (h.formed _ (List.mem_of_getElem? hw)).callbacks _ (Or.inr ht)
    | tapped _ ht =>
      cases a <;> first
        | exact ht.elim
        | exact hP labor (by rw [ht.1])
  · rcases App.step_pending hs hw with ⟨i, -, t', -, hx⟩ | hw | ⟨w₀, hw₀, rfl⟩
    · exact header_of_issues hx ht hk
    · exact h.callbacks w hw t ht key hk
    · simp at ht

end

section
variable {debug : Bool} {ι : Type} [DecidableEq ι] {accounts : List Uid} {store : Store}
  {n : Fleet ι} {as : List (ι × Action)}

/-- A fleet and the request model that stands for it, after the actions `bs`. -/
structure Follows (P : Labor → Prop) (store : Store) (n : Fleet ι) (l : List (ι × Tap × Stage))
    (bs : List RequestAction) : Prop where
  run : run Requests.act ⟨store, []⟩ bs = some ⟨n.shared.store, l.map Prod.snd⟩
  threads : ∀ i, Matched (Owned i) (n.app i).threads l
  tapping : ∀ i, Tapping P (n.app i)
  taps : ∀ t, .tap t ∈ bs → P t.labor
  profiles : bs.filterMap RequestAction.profileWrite = n.committed.filter (·.1.user.isSome)

theorem Follows.step {P : Labor → Prop} {l : List (ι × Tap × Stage)} {bs : List RequestAction}
    {n' : Fleet ι} {x : ι × Action} (h : Follows P store n l bs) (ha : x.2.OfDocuments)
    (hP : ∀ labor, P labor → ∀ key ∈ labor.key, isDocument (laborRequests key))
    (hx : ∀ labor, x.2 = .tapMarker labor → P labor) (hs : Fleet.step debug n x = some n') :
    ∃ l' bs', Follows P store n' l' bs' := by
  obtain ⟨s', hn, hb, hv, ho, hh⟩ := Shared.step_cases hs
  have hself : n'.app x.1 = s' := hv
  have hother : ∀ j ≠ x.1, n'.app j = (n.app j).on n'.shared := ho
  have hstore : n'.shared.store = s'.store := by rw [hb]; rfl
  obtain ⟨l', bs', hsim⟩ := step_simulated (h.threads x.1) (h.tapping x.1) hP hn
  refine ⟨l', bs ++ bs', run_append.2 ⟨_, h.run, hstore ▸ hsim.run⟩, fun j => ?_, fun j => ?_,
    fun t ht => ?_, ?_⟩
  · by_cases hj : j = x.1
    · rw [hj, hself]
      exact hsim.own
    · rw [hother j hj]
      exact hsim.others j hj _ (h.threads j)
  · by_cases hj : j = x.1
    · rw [hj, hself]
      exact (h.tapping x.1).step ha hx hn
    · rw [hother j hj]
      exact (h.tapping j).on _
  · rcases List.mem_append.1 ht with ht | ht
    · exact h.taps t ht
    · exact hsim.taps t ht
  · rw [List.filterMap_append, h.profiles, hsim.profiles, Fleet.committed, Fleet.committed, hh,
      List.filterMap_append, List.filter_append, filterMap_tagged Event.commits]
    rfl

/-- **Refinement.**  Every run of a fleet is a run of the request model on the same
    documents, with taps of the labors that were tapped, and with the profile
    writes that the backend has applied, in their order. -/
theorem requests_of_run (ha : ∀ x ∈ as, x.2.OfDocuments)
    (hr : run (Fleet.step debug) (Fleet.launch accounts store) as = some n) :
    ∃ bs s, run Requests.act ⟨store, []⟩ bs = some s ∧ s.shared = n.shared.store ∧
      bs.filterMap RequestAction.profileWrite = n.committed.filter (·.1.user.isSome) ∧
      ∀ t, .tap t ∈ bs → ∃ i, (i, .tapMarker t.labor) ∈ as := by
  let P (labor : Labor) : Prop := ∃ i, (i, .tapMarker labor) ∈ as
  have hP : ∀ labor, P labor → ∀ key ∈ labor.key, isDocument (laborRequests key) :=
    fun labor ⟨i, hi⟩ => ha _ hi
  have h₀ : Follows P store (Fleet.launch accounts store : Fleet ι) [] [] :=
    ⟨rfl, fun _ => .zero [], fun _ => .launch accounts store, by simp, rfl⟩
  obtain ⟨l, bs, h⟩ := run_invariant (C := fun _ x => x ∈ as)
    (I := fun n => ∃ l bs, Follows P store n l bs)
    (fun n x n' ⟨l, bs, h⟩ hx hs =>
      h.step (ha x hx) hP (fun labor hl => ⟨x.1, by rw [← hl]; exact hx⟩) hs)
    ⟨[], [], h₀⟩ (along_of_forall fun _ hx => hx) hr
  exact ⟨bs, _, h.run, rfl, h.profiles, h.taps⟩

theorem requests_twoDevices :
    ∃ n : Fleet ℕ, run (Fleet.step true) (Fleet.launch [] ∅) twoDevices = some n ∧
      ∃ bs s, run Requests.act ⟨∅, []⟩ bs = some s ∧ s.shared = n.shared.store ∧
        bs.filterMap RequestAction.profileWrite = n.committed.filter (·.1.user.isSome) ∧
        ∀ t, .tap t ∈ bs → ∃ i, (i, .tapMarker t.labor) ∈ twoDevices :=
  ⟨_, rfl, @requests_of_run true ℕ _ [] ∅ _ twoDevices (by decide) rfl⟩

end
end Mazdoor
