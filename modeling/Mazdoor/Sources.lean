/-
  Where the globals of a registration and of a location come from.

  Four handlers put them there: the reply of `getToken`, `_validityState` of the
  registration form, and the position listeners of `UserLocation` and
  `CustomMap`.  A relaunch clears them, and nothing else does.

  * `Sources`: which of the handlers have run since the launch; `Sources.step`
    follows the events and does not read the globals;
  * `Traces`: the same for every write, as it was when the write was issued;
  * `Globals.From`: the globals hold what the handlers put there;
  * `Sourced`: so they do in every state of a run, and so do the fields of every
    pending and every applied write (`Sourced.step`).
-/
import Mazdoor.Lib.Ghost
import Mazdoor.Lib.Labelled
import Mazdoor.Frame

namespace Mazdoor

open Transition

/-! ## Events -/

/-- The screens that listen to positions. -/
inductive Listener where
  | userLocation
  | customMap
  deriving DecidableEq

/-- The handlers that have run since the launch. -/
structure Sources where
  /-- `pushMessagingToken` has the reply of `getToken` -/
  token : Bool := false
  /-- `_validityState` has accepted a form -/
  form : Bool := false
  /-- the listener that wrote the location last -/
  location : Option Listener := none
  deriving DecidableEq

/-- The handler of a continuation: a disposed `State` assigns nothing in a debug
    build, and has no form; the geocoder may find nothing. -/
def Sources.resume (debug : Bool) (s : App) (g : Sources) : Task → Reply → Sources
  | .messagingToken k, .token _ => if s.assigns debug k then { g with token := true } else g
  | .validityState k, .form name phone =>
    if s.isMounted k ∧ validate name phone then { g with form := true } else g
  | .geocode k _, .placemarks ps =>
    if s.assigns debug k ∧ ps ≠ [] then { g with location := some .customMap } else g
  | _, _ => g

def Sources.step (debug : Bool) (s : App) (g : Sources) : Action → Sources
  | .relaunch => {}
  | .resume i r =>
    match s.tasks[i]? with
    | some t => g.resume debug s t r
    | none => g
  | .position k _ =>
    match s.mounted.find? (·.key = k) with
    | some ⟨.userLocation, _⟩ => { g with location := some .userLocation }
    | _ => g
  | _ => g

/-- The sources now, those of each pending write when it was issued, and those of
    the applied writes, in their order. -/
structure Traces where
  now : Sources := {}
  pending : List Sources := []
  applied : List (Site × Sources) := []

/-- The sources of the pending write `j`, under its site. -/
def Traces.answered (x : Traces) (s : App) (j : ℕ) : Option (Site × Sources) :=
  s.pending[j]?.bind fun w => x.pending[j]?.map (w.site, ·)

/-- What a step from `s` to `s'` adds. -/
def Traces.step (debug : Bool) (s s' : App) (a : Action) (x : Traces) : Traces :=
  match a with
  | .commit j =>
    { x with
      pending := x.pending.eraseIdx j
      applied := x.applied ++ (x.answered s j).toList }
  | .reject j => { x with pending := x.pending.eraseIdx j }
  | a =>
    { x with
      now := x.now.step debug s a
      pending := x.pending ++ List.replicate (s'.pending.length - s.pending.length) x.now }

/-- A step of the app with the traces. -/
def traced (debug : Bool) : App × Traces → Action → Option (App × Traces) :=
  withGhost (step debug) (Traces.step debug)

/-- The traces of a run from `s`. -/
def Traces.after (debug : Bool) (s : App) (acts : List Action) : Traces :=
  ghostAfter (Mazdoor.step debug) (Traces.step debug) s {} acts

/-! ## What they say of the globals -/

/-- The globals hold what the handlers put there. -/
structure Globals.From (g : Sources) (gl : Globals) : Prop where
  token : gl.userToken.isSome = g.token
  name : gl.userName.isSome = g.form
  phone : gl.userPhoneNumber.isSome = g.form
  address :
    match g.location with
    | none => gl.userAddress = none
    | some .userLocation => gl.userAddress = some "null"
    | some .customMap => ∃ p, gl.userAddress = some (presentAddress p)

/-- The fields of a write to a profile are those of such globals. -/
def FieldsFrom (site : Site) (fields : Fields) (g : Sources) : Prop :=
  match site with
  | .registration _ => ∃ gl : Globals, gl.From g ∧ fields = registrationFields gl
  | .location _ => ∃ gl : Globals, gl.From g ∧ fields = locationFields gl
  | _ => True

/-- **Traces are true**, of the globals and of every write. -/
structure Sourced (s : App) (x : Traces) : Prop where
  global : s.global.From x.now
  pending : List.Forall₂ (fun w g => FieldsFrom w.site w.fields g) s.pending x.pending
  applied : List.Forall₂ (fun c y => c.1 = y.1 ∧ FieldsFrom c.1 c.2 y.2) s.committed x.applied

theorem Sourced.launch (accounts : List Uid) (store : Store) :
    Sourced (App.launch accounts store) {} :=
  ⟨⟨rfl, rfl, rfl, rfl⟩, .nil, .nil⟩

section
variable {debug : Bool} {s s' : App} {a : Action} {t : Task} {r : Reply} {g : Sources} {x : Traces}

/-- A write of the continuation `t` from these globals. -/
theorem fieldsFrom_of_issues {w : Write} (h : s.global.From g) (hw : t.Issues s w) :
    FieldsFrom w.site w.fields g := by
  cases t <;> simp only [Task.Issues] at hw
  case addPhoneNumber => subst hw; exact ⟨_, h, rfl⟩
  case locationStore => subst hw; exact ⟨_, h, rfl⟩
  case tap => obtain ⟨key, -, rfl⟩ := hw; trivial
  case tapProfile => obtain ⟨v, -, d, -, rfl⟩ := hw; trivial
  case picQuery => obtain ⟨p, -, rfl⟩ := hw; trivial

/-- The globals that have sources. -/
def Globals.sourced (gl : Globals) : List (Option String) :=
  [gl.userToken, gl.userName, gl.userPhoneNumber, gl.userAddress]

theorem Globals.From.congr {gl gl' : Globals} (h : gl.From g) (hg : gl'.sourced = gl.sourced) :
    gl'.From g := by
  simp only [Globals.sourced, List.cons.injEq, and_true] at hg
  obtain ⟨ht, hn, hp, ha⟩ := hg
  exact ⟨ht ▸ h.token, hn ▸ h.name, hp ▸ h.phone, by rw [ha]; exact h.address⟩

theorem sourced_withContext {k : ℕ} {f : App → App}
    (hf : (f s).global.sourced = s.global.sourced) :
    (s.withContext k f).global.sourced = s.global.sourced := by
  rcases App.withContext_cases s k f with ⟨-, h⟩ | h <;> rw [h]
  exact hf

theorem sourced_setState {k : ℕ} {f : Globals → Globals}
    (hf : (f s.global).sourced = s.global.sourced) :
    (s.setState debug k f).global.sourced = s.global.sourced := by
  rw [App.setState_global]
  split_ifs
  · exact hf
  · rfl

/-- The continuations of the handlers. -/
def Task.isHandler : Task → Bool
  | .messagingToken _ | .validityState _ | .geocode .. => true
  | _ => false

/-- The other continuations leave these globals alone. -/
theorem sourced_resume (ht : t.isHandler = false) (hr : App.resume debug s t r = some s') :
    s'.global.sourced = s.global.sourced := by
  unfold App.resume at hr
  split at hr <;> simp only [Option.some.injEq, reduceCtorEq] at hr <;> subst hr
  all_goals first
    | rfl
    | exact sourced_withContext rfl
    | exact sourced_setState rfl
    | (rw [App.display_global]; exact sourced_setState rfl)
    | (split <;> first
        | rfl
        | exact sourced_setState rfl
        | (rw [App.spawn_global]; exact sourced_setState rfl))
    | cases ht

/-- **Continuations**: the globals change as the sources say. -/
theorem Globals.From.resume (h : s.global.From g) (hr : App.resume debug s t r = some s') :
    s'.global.From (g.resume debug s t r) := by
  cases ht : t.isHandler with
  | false =>
    have hg : g.resume debug s t r = g := by
      cases t <;> first | rfl | cases ht
    rw [hg]
    exact h.congr (sourced_resume ht hr)
  | true =>
    cases t with
    | messagingToken k =>
      cases r <;> simp only [App.resume, Option.some.injEq, reduceCtorEq] at hr <;> subst hr
      case failed => exact h
      case token t =>
        rw [App.setState_global, Sources.resume]
        split_ifs
        · exact { h with token := rfl }
        · exact h
    | validityState k =>
      cases r <;> simp only [App.resume, Option.some.injEq, reduceCtorEq] at hr <;> subst hr
      case failed => exact h
      case form name phone =>
        rw [Sources.resume]
        split_ifs
        · exact { h with name := rfl, phone := rfl }
        · exact h
    | geocode k p =>
      cases r <;> simp only [App.resume, Option.some.injEq, reduceCtorEq] at hr <;> subst hr
      case failed => exact h
      case placemarks ps =>
        have ha : (s.emit (.placemarks p ps)).assigns debug k = s.assigns debug k := rfl
        rw [App.setState_global, Sources.resume, ha]
        by_cases hk : s.assigns debug k
        · rw [if_pos hk]
          cases ps with
          | nil =>
            rw [if_neg (by simp)]
            exact h
          | cons first rest =>
            rw [if_pos ⟨hk, by simp⟩]
            exact { h with address := ⟨first, rfl⟩ }
        · rw [if_neg hk, if_neg fun h => hk h.1]
          exact h
    | _ => cases ht

/-! ## Steps -/

theorem Sources.step_tap (ha : a.isTap) : g.step debug s a = g := by
  cases a <;> first
    | rfl
    | cases ha

theorem Traces.step_of_not_answer (ha : ∀ j, a ≠ .commit j ∧ a ≠ .reject j) :
    x.step debug s s' a =
      { x with
        now := x.now.step debug s a
        pending := x.pending ++ List.replicate (s'.pending.length - s.pending.length) x.now } := by
  cases a with
  | commit j => exact absurd rfl (ha j).1
  | reject j => exact absurd rfl (ha j).2
  | _ => rfl

/-- A position event of `UserLocation`, or one that is yet to be geocoded. -/
theorem Globals.From.position {k : ℕ} {p : Position} (h : s.global.From g)
    (hs : s.position k p = some s') : s'.global.From (g.step debug s (.position k p)) := by
  unfold App.position at hs
  split at hs
  · next hm =>
    obtain rfl := Option.some.inj hs
    simp only [Sources.step, hm]
    exact { h with address := rfl }
  · next hm =>
    obtain rfl := Option.some.inj hs
    simp only [Sources.step, hm]
    exact h
  · cases hs

theorem Traces.applied_of_ne_commit (ha : ∀ j, a ≠ .commit j) :
    (x.step debug s s' a).applied = x.applied := by
  cases a with
  | commit j => exact absurd rfl (ha j)
  | _ => rfl

/-- **Steps**: the globals change as the sources say. -/
theorem Globals.From.step (h : s.global.From g) (hs : Mazdoor.step debug s a = some s') :
    s'.global.From (g.step debug s a) := by
  cases App.step_stepped hs with
  | tap ha ht =>
    rw [ht.global, Sources.step_tap ha]
    exact h
  | relaunch => exact ⟨rfl, rfl, rfl, rfl⟩
  | located | geocode => exact h.position hs
  | @resume i r t s' ht hr =>
    simp only [Sources.step, ht]
    exact Globals.From.resume (s := s.dequeue i) h hr
  | dispose | commit | reject => exact h

/-- The sources of the writes that a step leaves pending and does not answer. -/
theorem Sourced.step_pending (h : Sourced s x) (ha : ∀ j, a ≠ .commit j ∧ a ≠ .reject j)
    (hs : Mazdoor.step debug s a = some s') :
    List.Forall₂ (fun w g => FieldsFrom w.site w.fields g) s'.pending
      (x.pending ++ List.replicate (s'.pending.length - s.pending.length) x.now) := by
  have still (hp : s'.pending = s.pending) : List.Forall₂ (fun w g => FieldsFrom w.site w.fields g)
      s'.pending (x.pending ++ List.replicate (s'.pending.length - s.pending.length) x.now) := by
    rw [hp, Nat.sub_self, List.replicate_zero, List.append_nil]
    exact h.pending
  cases App.step_stepped hs with
  | tap _ ht => exact still ht.pending
  | relaunch =>
    rw [App.relaunch_pending, List.length_map, Nat.sub_self, List.replicate_zero, List.append_nil]
    exact List.forall₂_map_left_iff.2 h.pending
  | dispose | located | geocode => exact still rfl
  | @resume i r t _ ht hr =>
    rcases (App.resume_resumed hr).issues with hp | ⟨-, w, hp, hw⟩
    · exact still hp
    · have hl : s'.pending.length - s.pending.length = 1 := by simp [hp]
      rw [hl, hp]
      exact List.rel_append h.pending (.cons (fieldsFrom_of_issues (s := s.dequeue i) h.global hw) .nil)
  | @commit j => exact absurd rfl (ha j).1
  | @reject j => exact absurd rfl (ha j).2

/-- The write that is answered, with its sources. -/
theorem Sourced.answered {j : ℕ} {w : Write} (h : Sourced s x) (hw : s.pending[j]? = some w) :
    ∃ g, x.answered s j = some (w.site, g) ∧ FieldsFrom w.site w.fields g := by
  obtain ⟨g, hg, hf⟩ := forall₂_getElem? h.pending hw
  exact ⟨g, by rw [Traces.answered, hw, Option.bind_some, hg]; rfl, hf⟩

/-- **Every step keeps the traces true.** -/
theorem Sourced.step (h : Sourced s x) (hs : Mazdoor.step debug s a = some s') :
    Sourced s' (x.step debug s s' a) := by
  by_cases ha : ∀ j, a ≠ .commit j ∧ a ≠ .reject j
  · rw [Traces.step_of_not_answer ha]
    refine ⟨h.global.step hs, h.step_pending ha hs, ?_⟩
    rw [committed_step hs fun j => (ha j).1]
    exact h.applied
  simp only [not_forall, not_and_or, not_not] at ha
  obtain ⟨j, rfl | rfl⟩ := ha
  · cases App.step_stepped hs with
    | @commit _ w hw hacc =>
      obtain ⟨g, hg, hwg⟩ := h.answered hw
      refine ⟨h.global, forall₂_eraseIdx h.pending j, ?_⟩
      rw [committed_commit]
      simp only [Traces.step, hg]
      exact List.rel_append h.applied (.cons ⟨rfl, hwg⟩ .nil)
    | tap ha => cases ha
  · cases App.step_stepped hs with
    | reject hw => exact ⟨h.global, forall₂_eraseIdx h.pending j, h.applied⟩
    | tap ha => cases ha

end

end Mazdoor
