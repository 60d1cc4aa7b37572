/-
  One press of Continue on the registration form (`lib/Screens/profile.dart`).

  The press starts `_validityState` and `uploadPic` and joins neither.  The first
  saves the form in the globals if both validators accept it; the second goes on
  to `addPhoneNumbertoFirestoreCollection`, which writes what the globals hold
  and leaves the screen, whatever became of the first.

  * `Press.step`: the actions on what the press has started, in any order, the
    user's way back, and disposals of states;
  * `FormRegistered`: only an accepted form is written and left, with its own
    values, and a rejected one changes nothing;
  * `rejectedForm_registered`: a rejected form that is written all the same;
  * `PressInv` is the invariant, and `registered_iff_saved` the theorem: a run
    registers the form if and only if every write is prepared after the form
    was saved, or from globals that held its values already.
-/
import Mazdoor.Frame

namespace Mazdoor

open Transition

/-! ## A press -/

/-- A press on its way. -/
structure Press where
  app : App
  /-- `_validityState` has accepted the form and saved it -/
  saved : Bool

/-- The form has these contents. -/
def Reply.OfForm (name phone : String) : Reply → Prop
  | .form n p => n = name ∧ p = phone
  | _ => True

/-- The actions on the tasks and writes that were started after `s`. -/
def Action.OfPress (s : App) (name phone : String) : Action → Prop
  | .resume i r => s.tasks.length ≤ i ∧ r.OfForm name phone
  | .commit j | .reject j => s.pending.length ≤ j
  | .back | .dispose _ => True
  | _ => False

instance (name phone : String) (r : Reply) : Decidable (r.OfForm name phone) := by
  induction r using Reply.casesOn <;> dsimp only [Reply.OfForm] <;> infer_instance

instance (s : App) (name phone : String) (a : Action) : Decidable (a.OfPress s name phone) := by
  induction a using Action.casesOn <;> dsimp only [Action.OfPress] <;> infer_instance

/-- `_validityState` goes on, and both validators accept. -/
def Task.saves (s : App) : Task → Reply → Bool
  | .validityState k, .form name phone => s.isMounted k && validate name phone
  | _, _ => false

theorem Task.saves_dequeue (s : App) (i : ℕ) (t : Task) (r : Reply) :
    t.saves (s.dequeue i) r = t.saves s r :=
  rfl

def Action.saves (s : App) : Action → Bool
  | .resume i r => s.tasks[i]?.any (·.saves s r)
  | _ => false

/-- A step of a press that was made in `s`. -/
def Press.step (debug : Bool) (s : App) (name phone : String) (p : Press) (a : Action) :
    Option Press :=
  if a.OfPress s name phone then
    (Mazdoor.step debug p.app a).map fun t => ⟨t, p.saved || a.saves p.app⟩
  else none

/-! ## Registration of the form -/

/-- The fields that are handed to Firestore, or applied by it. -/
def Event.writes : Event → Option Fields
  | .issued _ fields _ | .committed _ fields => some fields
  | _ => none

/-- The validators accept the form, and these are the values of its fields. -/
def Fields.OfForm (fields : Fields) (name phone : String) : Prop :=
  validate name phone ∧ fields.lookup "userName" = some (.str name) ∧
    fields.lookup "userPhoneNumber" = some (.str phone)

/-- What a press in `s` should have done when it is at `t`. -/
structure FormRegistered (s : App) (name phone : String) (t : App) : Prop where
  /-- only an accepted form is written, with its own values -/
  written : ∀ es, t.log = s.log ++ es → ∀ e ∈ es, ∀ fields ∈ e.writes, fields.OfForm name phone
  /-- only an accepted form leads to a new screen -/
  entered : ∀ e ∈ t.stack, e ∉ s.stack → validate name phone
  /-- a rejected form changes nothing -/
  rejected : validate name phone = false →
    (∀ id, t.profile id = s.profile id) ∧ t.global.userName = s.global.userName ∧
      t.global.userPhoneNumber = s.global.userPhoneNumber ∧ t.prefs = s.prefs

/-! ## A rejected form -/

/-- A first-time account on the registration form, with a picture. -/
def registrationForm : List Action :=
  [.resume 0 .done, .facebookSignIn, .resume 0 .done, .resume 0 (.credential "A"), .resume 0 .done,
    .pickProfileImage, .resume 0 .done]

/-- The form is rejected, and the picture is uploaded. -/
def rejectedForm : List Action :=
  [.resume 0 (.form "Ali" "0300"), .resume 0 (.url "u"), .resume 0 .done, .commit 0,
    .resume 0 .done]

/-- **The claimed registration fails**: a document is written for a form that
    both validators reject, and the app goes on to `UserLocation`. -/
theorem rejectedForm_registered :
    ∃ s s₁ p, run (step false) (App.launch [] ∅) registrationForm = some s ∧
      step false s .continueProfile = some s₁ ∧ validate "Ali" "0300" = false ∧
      run (Press.step false s "Ali" "0300") ⟨s₁, false⟩ rejectedForm = some p ∧
      p.app.top = some .userLocation ∧ (p.app.profile (.name "A")).isSome ∧
      ¬ FormRegistered s "Ali" "0300" p.app := by
  refine ⟨_, _, _, rfl, rfl, by decide, rfl, by decide, by decide, fun h => ?_⟩
  have := h.entered _ List.mem_cons_self (by decide)
  exact absurd this (by decide)

/-! ## The condition -/

/-- The form is valid, and the globals hold its values. -/
def App.HasForm (s : App) (name phone : String) : Prop :=
  validate name phone ∧ s.global.userName = some name ∧ s.global.userPhoneNumber = some phone

instance (s : App) (name phone : String) : Decidable (s.HasForm name phone) :=
  inferInstanceAs (Decidable (_ ∧ _))

/-- `addPhoneNumbertoFirestoreCollection` prepares its write after the form was
    saved, or the globals held the form's values when Continue was pressed. -/
def Task.Saved (s : App) (name phone : String) (saved : Bool) : Task → Reply → Prop
  | .addPhoneNumber .., .done => saved ∨ s.HasForm name phone
  | _, _ => True

instance (s : App) (name phone : String) (saved : Bool) (t : Task) (r : Reply) :
    Decidable (t.Saved s name phone saved r) := by
  induction t using Task.casesOn <;> induction r using Reply.casesOn <;>
    dsimp only [Task.Saved] <;> infer_instance

def Press.Saved (s : App) (name phone : String) (p : Press) : Action → Prop
  | .resume i r => ∀ t ∈ p.app.tasks[i]?, t.Saved s name phone p.saved r
  | _ => True

instance (s : App) (name phone : String) (p : Press) (a : Action) :
    Decidable (p.Saved s name phone a) := by
  induction a using Action.casesOn <;> dsimp only [Press.Saved] <;> infer_instance

/-! ## The invariant -/

/-- Something has been written since the press. -/
def Written (es : List Event) : Prop := ∃ e ∈ es, e.writes ≠ none

/-- The tasks of a press, and of the screen it leads to. -/
def Task.ofPress : Task → Bool
  | .validityState _ | .uploadPic .. | .addPhoneNumber .. | .addPhoneNumberDone .. | .readData _ =>
    true
  | _ => false

/-- A task of the press, whose navigation follows a write. -/
def Task.PressOK (es : List Event) (t : Task) : Prop := t.ofPress ∧ (t.isCallback → Written es)

/-- A write of the press that was logged. -/
structure Write.PressOK (es : List Event) (w : Write) : Prop where
  onDone : ∀ t ∈ w.onDone, t.ofPress
  onError : w.onError = none
  logged : ∃ e ∈ es, e.writes = some w.fields

/-- **The invariant** of a press that was made in `s`; `es` is what was logged since. -/
structure PressInv (s : App) (name phone : String) (es : List Event) (p : Press) : Prop where
  log : p.app.log = s.log ++ es
  tasks : ∃ ts, p.app.tasks = s.tasks ++ ts ∧ ∀ t ∈ ts, t.PressOK es
  pending : ∃ ws, p.app.pending = s.pending ++ ws ∧ ∀ w ∈ ws, w.PressOK es
  stack : ∀ e ∈ p.app.stack, e ∈ s.stack ∨ Written es
  store : (∀ id, p.app.profile id = s.profile id) ∨ Written es
  saved : p.saved → p.app.HasForm name phone
  unsaved : p.saved = false → p.app.global.userName = s.global.userName ∧
    p.app.global.userPhoneNumber = s.global.userPhoneNumber ∧ p.app.prefs = s.prefs

section
variable {debug : Bool} {s : App} {name phone : String} {es new : List Event} {p p' : Press}

theorem Written.append (h : Written es) : Written (es ++ new) := by
  obtain ⟨e, he, hw⟩ := h
  exact ⟨e, List.mem_append_left _ he, hw⟩

/-- A task that does not leave the screen. -/
theorem Task.PressOK.of {t : Task} (h : t.ofPress) (hc : t.isCallback = false) : t.PressOK es :=
  ⟨h, fun ht => absurd (hc.symm.trans ht) Bool.false_ne_true⟩

theorem Task.PressOK.append {t : Task} (h : t.PressOK es) : t.PressOK (es ++ new) :=
  ⟨h.1, fun ht => (h.2 ht).append⟩

theorem Write.PressOK.append {w : Write} (h : w.PressOK es) : w.PressOK (es ++ new) := by
  obtain ⟨e, he, hw⟩ := h.logged
  exact ⟨h.onDone, h.onError, e, List.mem_append_left _ he, hw⟩

/-- Every write since the press is right. -/
def AllOfForm (name phone : String) (es : List Event) : Prop :=
  ∀ e ∈ es, ∀ fields ∈ e.writes, fields.OfForm name phone

theorem AllOfForm.validate (h : AllOfForm name phone es) (hw : Written es) :
    validate name phone := by
  obtain ⟨e, he, hne⟩ := hw
  obtain ⟨fields, hf⟩ := Option.ne_none_iff_exists'.1 hne
  exact (h e he fields hf).1

theorem allOfForm_append :
    AllOfForm name phone (es ++ new) ↔ AllOfForm name phone es ∧ AllOfForm name phone new :=
  List.forall_mem_append

/-- Events that write nothing, or what was written before. -/
theorem allOfForm_quiet (h : ∀ e ∈ new, ∀ fields ∈ e.writes, ∃ e' ∈ es, e'.writes = some fields) :
    AllOfForm name phone (es ++ new) ↔ AllOfForm name phone es := by
  rw [allOfForm_append]
  refine and_iff_left_of_imp fun ha e he fields hf => ?_
  obtain ⟨e', he', hf'⟩ := h e he fields hf
  exact ha e' he' fields hf'

/-- The globals write the values of the form exactly when they hold them. -/
theorem registrationFields_ofForm (t : App) :
    (registrationFields t.global).OfForm name phone ↔ t.HasForm name phone := by
  have hn : (registrationFields t.global).lookup "userName" = some (.ofString t.global.userName) :=
    rfl
  have hp : (registrationFields t.global).lookup "userPhoneNumber" =
      some (.ofString t.global.userPhoneNumber) :=
    rfl
  rw [Fields.OfForm, App.HasForm, hn, hp]
  simp

/-- **What the invariant is for.** -/
theorem PressInv.registered_iff (h : PressInv s name phone es p) :
    FormRegistered s name phone p.app ↔ AllOfForm name phone es := by
  constructor
  · intro hr
    exact hr.written es h.log
  · intro ha
    refine ⟨fun es' hes => ?_, fun e he hne => ?_, fun hv => ?_⟩
    · obtain rfl := List.append_cancel_left (hes.symm.trans h.log)
      exact ha
    · exact ha.validate ((h.stack e he).resolve_left hne)
    · have hw : ¬ Written es := fun hw => by simp [ha.validate hw] at hv
      have hs : p.saved = false := by
        by_contra hs
        have := (h.saved (by simpa using hs)).1
        rw [hv] at this
        cases this
      exact ⟨h.store.resolve_right hw, h.unsaved hs⟩

/-! ## Steps -/

/-- A step that writes nothing keeps the invariant. -/
theorem PressInv.quiet {t : App} (h : PressInv s name phone es p)
    (hl : t.log = p.app.log ++ new) (hnew : ∀ e ∈ new, e.writes = none)
    (ht : ∃ ts, t.tasks = s.tasks ++ ts ∧ ∀ x ∈ ts, x.PressOK es)
    (hp : t.pending = p.app.pending) (hst : ∀ e ∈ t.stack, e ∈ p.app.stack ∨ Written es)
    (hs : t.store = p.app.store) (hn : t.global.userName = p.app.global.userName)
    (hph : t.global.userPhoneNumber = p.app.global.userPhoneNumber)
    (hpr : t.prefs = p.app.prefs) :
    PressInv s name phone (es ++ new) ⟨t, p.saved⟩ ∧
      (AllOfForm name phone (es ++ new) ↔ AllOfForm name phone es) := by
  refine ⟨⟨?_, ?_, ?_, fun e he => ?_, ?_, fun hv => ?_, fun hv => ?_⟩, allOfForm_quiet ?_⟩
  · rw [hl, h.log, List.append_assoc]
  · obtain ⟨ts, hts, hok⟩ := ht
    exact ⟨ts, hts, fun x hx => (hok x hx).append⟩
  · obtain ⟨ws, hws, hok⟩ := h.pending
    exact ⟨ws, hp.trans hws, fun w hw => (hok w hw).append⟩
  · exact ((hst e he).elim (h.stack e) Or.inr).imp id Written.append
  · refine h.store.imp (fun hid id => ?_) Written.append
    rw [← hid id, App.profile, App.profile, hs]
  · obtain ⟨hval, hname, hphone⟩ := h.saved hv
    exact ⟨hval, hn.trans hname, hph.trans hphone⟩
  · obtain ⟨hname, hphone, hprefs⟩ := h.unsaved hv
    exact ⟨hn.trans hname, hph.trans hphone, hpr.trans hprefs⟩
  · intro e he fields hf
    rw [hnew e he] at hf
    cases hf

/-- A step that logs nothing either. -/
theorem PressInv.still {t : App} (h : PressInv s name phone es p) (hl : t.log = p.app.log)
    (ht : ∃ ts, t.tasks = s.tasks ++ ts ∧ ∀ x ∈ ts, x.PressOK es)
    (hp : t.pending = p.app.pending) (hst : ∀ e ∈ t.stack, e ∈ p.app.stack ∨ Written es)
    (hs : t.store = p.app.store) (hg : t.global = p.app.global) (hpr : t.prefs = p.app.prefs) :
    PressInv s name phone es ⟨t, p.saved⟩ := by
  have hq := (h.quiet (hl.trans (List.append_nil _).symm) (fun e he => absurd he List.not_mem_nil)
    ht hp hst hs (hg ▸ rfl) (hg ▸ rfl) hpr).1
  rwa [List.append_nil] at hq

/-- A task of the press is taken out of the queue. -/
theorem PressInv.dequeue {i : ℕ} {t : Task} (h : PressInv s name phone es p)
    (hi : s.tasks.length ≤ i) (ht : p.app.tasks[i]? = some t) :
    t.PressOK es ∧ PressInv s name phone es ⟨p.app.dequeue i, p.saved⟩ := by
  obtain ⟨ts, hts, hok⟩ := h.tasks
  obtain ⟨n, hn, he⟩ := App.eraseIdx_since hts hi ht
  refine ⟨hok t (List.mem_of_getElem? hn), ?_⟩
  exact { h with tasks := ⟨_, he, fun x hx => hok x (List.mem_of_mem_eraseIdx hx)⟩ }

/-- `_validityState` saves an accepted form. -/
theorem PressInv.validityState {k : ℕ} (h : PressInv s name phone es p)
    (hv : p.app.isMounted k ∧ validate name phone) :
    PressInv s name phone es
      ⟨{ p.app with prefs := { p.app.prefs with userName := some name } }.setGlobal
        ({ · with userName := some name, userPhoneNumber := some phone }), true⟩ :=
  { h with
    saved := fun _ => ⟨hv.2, rfl, rfl⟩
    unsaved := fun hv => absurd hv.symm Bool.false_ne_true }

/-- `addPhoneNumbertoFirestoreCollection` hands the globals to Firestore. -/
theorem PressInv.issue {w : Write} (h : PressInv s name phone es p) (uid who : Option Uid)
    (hw : w.fields = registrationFields p.app.global)
    (hd : ∀ t ∈ w.onDone, t.ofPress) (he : w.onError = none) :
    PressInv s name phone (es ++ [.issued w.site w.fields who])
      ⟨(p.app.document uid).issue w who, p.saved⟩ ∧
    (AllOfForm name phone (es ++ [.issued w.site w.fields who]) ↔
      AllOfForm name phone es ∧ (p.saved ∨ s.HasForm name phone)) := by
  constructor
  · refine ⟨?_, ?_, ?_, fun e he => (h.stack e he).imp id Written.append,
      h.store.imp id Written.append, h.saved, h.unsaved⟩
    · rw [App.issue_log, App.document_log, h.log, List.append_assoc]
    · obtain ⟨ts, hts, hok⟩ := h.tasks
      exact ⟨ts, hts, fun x hx => (hok x hx).append⟩
    · obtain ⟨ws, hws, hok⟩ := h.pending
      refine ⟨ws ++ [w], ?_, fun w' hw' => ?_⟩
      · rw [App.issue_pending, App.document_pending, hws, List.append_assoc]
      · rcases List.mem_append.1 hw' with hw' | hw'
        · exact (hok w' hw').append
        · obtain rfl := List.mem_singleton.1 hw'
          exact ⟨hd, he, _, List.mem_append_right _ List.mem_cons_self, rfl⟩
  · rw [allOfForm_append]
    refine and_congr_right fun _ => ?_
    rw [AllOfForm, List.forall_mem_singleton]
    simp only [Event.writes, Option.mem_def, Option.some.injEq, forall_eq']
    rw [hw, registrationFields_ofForm p.app]
    -- until the form is saved, the globals are those of the press
    cases hv : p.saved with
    | true => exact iff_of_true (h.saved hv) (Or.inl rfl)
    | false =>
      obtain ⟨hname, hphone, -⟩ := h.unsaved hv
      rw [App.HasForm, hname, hphone]
      simp [App.HasForm]

theorem writes_stateError (s : App) (k : ℕ) : ∀ e ∈ s.stateError k, e.writes = none := by
  intro e he
  unfold App.stateError at he
  split at he
  · cases he
  · rw [List.mem_singleton.1 he]
    rfl

/-- `setState` with a closure that leaves the name and the phone number alone. -/
theorem setState_form (s : App) (k : ℕ) {f : Globals → Globals}
    (hn : ∀ g, (f g).userName = g.userName) (hp : ∀ g, (f g).userPhoneNumber = g.userPhoneNumber) :
    (s.setState debug k f).global.userName = s.global.userName ∧
      (s.setState debug k f).global.userPhoneNumber = s.global.userPhoneNumber := by
  rw [App.setState_global]
  split
  · exact ⟨hn _, hp _⟩
  · exact ⟨rfl, rfl⟩

/-- `uploadPic` goes on to the write while its screen is mounted. -/
theorem PressInv.uploadPic {k : ℕ} {u : String} {who : Option Uid}
    (h : PressInv s name phone es p) :
    let s' := p.app.setState debug k ({ · with userImage := some u })
    PressInv s name phone (es ++ p.app.stateError k)
      ⟨if p.app.isMounted k then s'.spawn (.addPhoneNumber k who) else s', p.saved⟩ ∧
    (AllOfForm name phone (es ++ p.app.stateError k) ↔ AllOfForm name phone es) := by
  intro s'
  obtain ⟨hn, hp⟩ : s'.global.userName = p.app.global.userName ∧
      s'.global.userPhoneNumber = p.app.global.userPhoneNumber :=
    setState_form p.app k (fun _ => rfl) fun _ => rfl
  obtain ⟨ts, hts, hok⟩ := h.tasks
  split
  · refine h.quiet rfl (writes_stateError _ _) ⟨ts ++ [.addPhoneNumber k who], ?_, fun x hx => ?_⟩
      rfl (fun _ => Or.inl) rfl hn hp rfl
    · rw [App.spawn_tasks, App.setState_tasks, hts, List.append_assoc]
    · rcases List.mem_append.1 hx with hx | hx
      · exact hok x hx
      · rw [List.mem_singleton.1 hx]
        exact .of rfl rfl
  · exact h.quiet rfl (writes_stateError _ _) ⟨ts, hts, hok⟩ rfl (fun _ => Or.inl) rfl hn hp rfl

/-- The screen is replaced after a write. -/
theorem PressInv.addPhoneNumberDone {k : ℕ} (h : PressInv s name phone es p) (hw : Written es) :
    PressInv s name phone es ⟨p.app.withContext k (·.pushReplacement .userLocation), p.saved⟩ := by
  obtain ⟨ts, hts, hok⟩ := h.tasks
  rcases App.withContext_cases p.app k (·.pushReplacement .userLocation) with ⟨-, hc⟩ | hc <;>
    rw [hc]
  · refine h.still (t := p.app.pushReplacement .userLocation) rfl
      ⟨_, (App.pushReplacement_tasks p.app .userLocation).trans
        (congrArg (· ++ _) hts |>.trans (List.append_assoc _ _ _)), fun x hx => ?_⟩
      rfl (fun _ _ => Or.inr hw) rfl rfl rfl
    rcases List.mem_append.1 hx with hx | hx
    · exact hok x hx
    · split at hx
      · cases hx
      · rw [App.initTasks, List.mem_singleton] at hx
        subst hx
        exact .of rfl rfl
  · exact h

/-- `UserLocation.readData` shows the greeting. -/
theorem PressInv.readData (h : PressInv s name phone es p) (debug : Bool) (k : ℕ) :
    ∃ new, PressInv s name phone (es ++ new)
      ⟨(p.app.setState debug k id).display k (.greeting p.app.prefs.userName), p.saved⟩ ∧
    (AllOfForm name phone (es ++ new) ↔ AllOfForm name phone es) := by
  obtain ⟨hn, hp⟩ : (p.app.setState debug k id).global.userName = p.app.global.userName ∧
      (p.app.setState debug k id).global.userPhoneNumber = p.app.global.userPhoneNumber :=
    setState_form p.app k (fun _ => rfl) fun _ => rfl
  refine ⟨p.app.stateError k ++ if p.app.isMounted k then [.greeting p.app.prefs.userName] else [],
    h.quiet ?_ (fun e he => ?_) h.tasks rfl (fun _ => Or.inl) rfl hn hp rfl⟩
  · rw [App.display_log, App.setState_log, List.append_assoc]
    rfl
  · rcases List.mem_append.1 he with he | he
    · exact writes_stateError _ _ e he
    · split at he
      · rw [List.mem_singleton.1 he]
        rfl
      · cases he

/-- **Continuations.**  A continuation of the press keeps the invariant, and what
    is written right exactly if it meets the condition. -/
theorem PressInv.resume {t : Task} {r : Reply} {s' : App} (h : PressInv s name phone es p)
    (ht : t.PressOK es) (hf : r.OfForm name phone) (hr : App.resume debug p.app t r = some s') :
    ∃ new, PressInv s name phone (es ++ new) ⟨s', p.saved || t.saves p.app r⟩ ∧
      (AllOfForm name phone (es ++ new) ↔
        AllOfForm name phone es ∧ t.Saved s name phone p.saved r) := by
  have idle {s' : App} (h : PressInv s name phone es ⟨s', p.saved⟩) :
      ∃ new, PressInv s name phone (es ++ new) ⟨s', p.saved || false⟩ ∧
        (AllOfForm name phone (es ++ new) ↔ AllOfForm name phone es ∧ True) := by
    refine ⟨[], ?_⟩
    simpa using h
  cases t <;> simp only [Task.PressOK, Task.ofPress, reduceCtorEq, false_and] at ht
  case validityState k =>
    cases r <;> simp only [App.resume, Option.some.injEq, reduceCtorEq] at hr <;> subst hr
    case failed => exact idle h
    case form n ph =>
      obtain ⟨rfl, rfl⟩ := hf
      refine ⟨[], ?_⟩
      simp only [Task.saves, Task.Saved, List.append_nil, and_true, iff_self]
      split
      · rename_i hv
        simpa [hv] using h.validityState hv
      · rename_i hv
        have : (p.app.isMounted k && validate n ph) = false := by simpa using hv
        simpa [this] using h
  case uploadPic k who =>
    cases r <;> simp only [App.resume, Option.some.injEq, reduceCtorEq] at hr <;> subst hr
    case failed => exact idle h
    case url u =>
      refine ⟨p.app.stateError k, ?_⟩
      simp only [Task.saves, Task.Saved, Bool.or_false, and_true]
      exact h.uploadPic
  case addPhoneNumber k who =>
    cases r <;> simp only [App.resume, Option.some.injEq, reduceCtorEq] at hr <;> subst hr
    case failed => exact idle h
    case done =>
      have hi := h.issue (w := ⟨.registration (p.app.docId p.app.prefs.currentUserId),
        registrationFields p.app.global, some (.addPhoneNumberDone k who), none⟩)
        p.app.prefs.currentUserId who rfl (by simp [Task.ofPress]) rfl
      exact ⟨_, by simpa [Task.saves, Task.Saved] using hi⟩
  case addPhoneNumberDone k who =>
    cases r <;> simp only [App.resume, Option.some.injEq, reduceCtorEq] at hr <;> subst hr
    case failed => exact idle h
    case done => exact idle (h.addPhoneNumberDone (ht.2 rfl))
  case readData k =>
    cases r <;> simp only [App.resume, Option.some.injEq, reduceCtorEq] at hr <;> subst hr
    case failed => exact idle h
    case done =>
      obtain ⟨new, hn⟩ := h.readData debug k
      exact ⟨new, by simpa [Task.saves, Task.Saved] using hn⟩

/-- Firestore applies a write of the press. -/
theorem PressInv.commit {j : ℕ} {w : Write} (h : PressInv s name phone es p)
    (hj : s.pending.length ≤ j) (hw : p.app.pending[j]? = some w) :
    ∃ new, PressInv s name phone (es ++ new) ⟨(p.app.answer j).commit w, p.saved⟩ ∧
      (AllOfForm name phone (es ++ new) ↔ AllOfForm name phone es) := by
  obtain ⟨ws, hws, hok⟩ := h.pending
  obtain ⟨n, hn, he⟩ := App.eraseIdx_since hws hj hw
  have hwok := hok w (List.mem_of_getElem? hn)
  have hcreated : ∀ e ∈ (p.app.answer j).creation w, e.writes = none := by
    intro e he
    obtain ⟨_, -, -, rfl⟩ := App.mem_creation he
    rfl
  have hwritten : Written (es ++ .committed w.site w.fields :: (p.app.answer j).creation w) :=
    ⟨_, List.mem_append_right _ List.mem_cons_self, by simp [Event.writes]⟩
  refine ⟨.committed w.site w.fields :: (p.app.answer j).creation w, ?_, allOfForm_quiet ?_⟩
  · refine ⟨?_, ?_, ?_, fun _ _ => Or.inr hwritten, Or.inr hwritten, h.saved, h.unsaved⟩
    · rw [App.commit_log, App.answer_log, h.log, List.append_assoc]
    · obtain ⟨ts, hts, htok⟩ := h.tasks
      refine ⟨ts ++ w.onDone.toList, ?_, fun x hx => ?_⟩
      · rw [App.commit_tasks, App.answer_tasks, hts, List.append_assoc]
      · rcases List.mem_append.1 hx with hx | hx
        · exact (htok x hx).append
        · exact ⟨hwok.onDone x (Option.mem_toList.1 hx), fun _ => hwritten⟩
    · exact ⟨_, he, fun w' hw' => (hok w' (List.mem_of_mem_eraseIdx hw')).append⟩
  · intro e he fields hf
    rcases List.mem_cons.1 he with rfl | he
    · obtain rfl := Option.some.inj hf
      exact hwok.logged
    · rw [hcreated e he] at hf
      cases hf

/-- Firestore rejects a write of the press; nothing handles it. -/
theorem PressInv.reject {j : ℕ} {w : Write} (h : PressInv s name phone es p)
    (hj : s.pending.length ≤ j) (hw : p.app.pending[j]? = some w) :
    PressInv s name phone es ⟨(p.app.answer j).spawnAll w.onError.toList, p.saved⟩ := by
  obtain ⟨ws, hws, hok⟩ := h.pending
  obtain ⟨n, hn, he⟩ := App.eraseIdx_since hws hj hw
  have herr := (hok w (List.mem_of_getElem? hn)).onError
  refine { h with
    tasks := ?_
    pending := ⟨_, he, fun w' hw' => hok w' (List.mem_of_mem_eraseIdx hw')⟩ }
  rw [herr, App.spawnAll_tasks, Option.toList_none, List.append_nil]
  exact h.tasks

/-- **Steps.**  Every step keeps the invariant, and what is written right exactly
    if it meets the condition. -/
theorem PressInv.step {a : Action} (h : PressInv s name phone es p)
    (hs : Press.step debug s name phone p a = some p') :
    ∃ new, PressInv s name phone (es ++ new) p' ∧
      (AllOfForm name phone (es ++ new) ↔
        AllOfForm name phone es ∧ p.Saved s name phone a) := by
  simp only [Press.step, Option.ite_none_right_eq_some, Option.map_eq_some_iff] at hs
  obtain ⟨ha, t, ht, rfl⟩ := hs
  cases a <;> simp only [Action.OfPress] at ha <;> simp only [Mazdoor.step] at ht <;>
    simp only [Action.saves, Press.Saved, Bool.or_false, and_true]
  case back =>
    simp only [Option.ite_none_right_eq_some, Option.some.injEq] at ht
    obtain ⟨-, rfl⟩ := ht
    have h' : PressInv s name phone es ⟨p.app.pop, p.saved⟩ :=
      h.still rfl h.tasks rfl (fun e he => Or.inl (List.mem_of_mem_tail he)) rfl rfl rfl
    exact ⟨[], by simpa using h'⟩
  case dispose k =>
    split_ifs at ht
    obtain rfl := Option.some.inj ht
    have h' : PressInv s name phone es ⟨p.app.dispose k, p.saved⟩ :=
      h.still rfl h.tasks rfl (fun _ => Or.inl) rfl rfl rfl
    exact ⟨[], by simpa using h'⟩
  case resume i r =>
    cases hi : p.app.tasks[i]? with
    | none => simp [hi] at ht
    | some x =>
      rw [hi] at ht
      obtain ⟨hx, hd⟩ := h.dequeue ha.1 hi
      have hr := hd.resume hx ha.2 ht
      rw [Task.saves_dequeue] at hr
      simpa using hr
  case commit j =>
    split at ht
    · rename_i w hw
      split_ifs at ht
      obtain rfl := Option.some.inj ht
      exact h.commit ha hw
    · cases ht
  case reject j =>
    split at ht
    · rename_i w hw
      obtain rfl := Option.some.inj ht
      exact ⟨[], by simpa using h.reject ha hw⟩
    · cases ht

/-- The press itself. -/
theorem PressInv.start {s₁ : App} (hp : Mazdoor.step debug s .continueProfile = some s₁) :
    PressInv s name phone [] ⟨s₁, false⟩ := by
  simp only [Mazdoor.step] at hp
  obtain ⟨k, st, -, rfl⟩ := App.onTop_eq_some hp
  refine ⟨?_, ⟨_, rfl, fun t ht => ?_⟩, ⟨[], ?_, fun w hw => ?_⟩, fun _ => Or.inl,
    Or.inl fun _ => rfl, fun hv => absurd hv Bool.false_ne_true, fun _ => ⟨rfl, rfl, rfl⟩⟩
  · rw [App.continueProfile_log, List.append_nil]
  · rcases List.mem_cons.1 ht with rfl | ht
    · exact .of rfl rfl
    · split at ht
      · rw [List.mem_singleton.1 ht]
        exact .of rfl rfl
      · cases ht
  · rw [App.continueProfile_pending, List.append_nil]
  · cases hw

/-- **One press of Continue.**  After every step of a press the form is registered
    as claimed, if and only if every write is prepared after the form was saved,
    or from globals that held its values when Continue was pressed. -/
theorem registered_iff_saved {s₁ : App} {t : Press} {as : List Action}
    (hp : Mazdoor.step debug s .continueProfile = some s₁)
    (hr : run (Press.step debug s name phone) ⟨s₁, false⟩ as = some t) :
    (∀ as' p, as' <+: as → run (Press.step debug s name phone) ⟨s₁, false⟩ as' = some p →
      FormRegistered s name phone p.app) ↔
      Along (Press.step debug s name phone) (Press.Saved s name phone) ⟨s₁, false⟩ as := by
  refine forall_prefix_iff_along
    (I := fun p => ∃ es, PressInv s name phone es p ∧ AllOfForm name phone es) ?_ ?_ ?_
    ⟨[], .start hp, fun e he => absurd he List.not_mem_nil⟩ hr
  · rintro p ⟨es, h, hall⟩
    exact h.registered_iff.2 hall
  · rintro p a p' ⟨es, h, hall⟩ hc hs
    obtain ⟨new, h', hiff⟩ := h.step hs
    exact ⟨_, h', hiff.2 ⟨hall, hc⟩⟩
  · rintro p a p' ⟨es, h, hall⟩ hs hp'
    obtain ⟨new, h', hiff⟩ := h.step hs
    exact (hiff.1 (h'.registered_iff.1 hp')).2

end

/-- The form is accepted and saved while the picture is uploaded. -/
def acceptedForm : List Action :=
  [.resume 0 (.form "Ahmad" "03001234567"), .resume 0 (.url "u"), .resume 0 .done, .commit 0,
    .resume 0 .done]

theorem acceptedForm_registered :
    ∃ s s₁ p, run (step false) (App.launch [] ∅) registrationForm = some s ∧
      step false s .continueProfile = some s₁ ∧
      run (Press.step false s "Ahmad" "03001234567") ⟨s₁, false⟩ acceptedForm = some p ∧
      p.app.top = some .userLocation ∧ FormRegistered s "Ahmad" "03001234567" p.app :=
  ⟨_, _, _, rfl, rfl, rfl, by decide,
    (@registered_iff_saved false _ "Ahmad" "03001234567" _ _ acceptedForm rfl rfl).2 (by decide)
      _ _ List.prefix_rfl rfl⟩

end Mazdoor
