/-
  What becomes of the writes that a device issues.

  * `App.issued`: the writes that a device has handed to Firestore;
  * `issued_step`: a step issues nothing, or the write of a continuation;
  * `Balanced`: every issued write is applied, pending or rejected, once;
    `books_of_run`: so are the books of every device in a run of a fleet;
  * `Balanced.mem_issued_of_pending`, `issued_of_committed`: what is pending or
    applied was issued.
-/
import Mazdoor.Fleet
import Mazdoor.Creation
import Mathlib.Data.List.Perm.Basic

namespace Mazdoor

open Transition

/-- The write that an event hands to Firestore. -/
def Event.issues : Event → Option (Site × Fields)
  | .issued site fields _ => some (site, fields)
  | _ => none

def App.issued (s : App) : List (Site × Fields) := s.log.filterMap Event.issues

/-- Every issued write is applied, pending, or one of the rejected writes. -/
def Balanced (s : App) : Prop :=
  ∃ rejected : List (Site × Fields),
    s.issued.Perm (s.committed ++ s.pending.map Write.content ++ rejected)

section
variable {debug : Bool} {s s' : App} {t : Task} {r : Reply} {a : Action}

theorem issues_of_isShown {e : Event} (h : e.isShown) : e.issues = none := by
  cases e <;> simp_all [Event.isShown, Event.issues]

theorem filterMap_issues_stateError (s : App) (k : ℕ) :
    (s.stateError k).filterMap Event.issues = [] :=
  List.filterMap_eq_nil_iff.2 fun _ he => by rw [App.eq_of_mem_stateError he]; rfl

/-- A continuation logs as issued the write that it adds to the pending ones. -/
theorem App.Resumed.issued_eq (h : Resumed debug s t r s') :
    ∃ w : Option Write, s'.pending = s.pending ++ w.toList ∧
      s'.issued = s.issued ++ w.toList.map Write.content ∧ ∀ x ∈ w, t.Issues s x ∧ r = .done := by
  induction h with
  | idle => exact ⟨none, by simp, by simp, by simp⟩
  | setState _ _ _ _ ih | setImage _ _ _ _ ih =>
    obtain ⟨w, hp, hi, hw⟩ := ih
    refine ⟨w, hp, ?_, hw⟩
    rw [← hi]
    simp [App.issued, filterMap_issues_stateError]
  | display _ k he ih =>
    obtain ⟨w, hp, hi, hw⟩ := ih
    refine ⟨w, hp, ?_, hw⟩
    rw [← hi, App.issued, display_log, List.filterMap_append]
    split <;> simp [issues_of_isShown he, App.issued]
  | emit _ he ih =>
    obtain ⟨w, hp, hi, hw⟩ := ih
    refine ⟨w, hp, ?_, hw⟩
    rw [← hi]
    simp [App.issued, issues_of_isShown he]
  | forward _ _ _ _ ih =>
    obtain ⟨w, hp, hi, hw⟩ := ih
    refine ⟨w, hp, ?_, hw⟩
    rw [← hi]
    simp [App.issued, Event.issues]
  | @issue _ x _ _ hp₀ hr hx _ ih =>
    obtain ⟨w, hp, hi, -⟩ := ih
    obtain rfl : w = none := by simpa [hp₀] using hp
    refine ⟨some x, congrArg (· ++ [x]) hp₀, ?_, fun y hy => Option.some.inj hy ▸ ⟨hx, hr⟩⟩
    rw [App.issued, issue_log, List.filterMap_append, ← App.issued, hi]
    simp [Event.issues, Write.content]
  | _ => assumption

/-- The books stay balanced when nothing is issued or answered. -/
theorem Balanced.still (h : Balanced s) (es : List Event) (hl : s'.log = s.log ++ es)
    (hi : ∀ e ∈ es, e.issues = none) (hc : ∀ e ∈ es, e.commits = none)
    (hp : s'.pending.map Write.content = s.pending.map Write.content) : Balanced s' := by
  obtain ⟨rejected, hperm⟩ := h
  have hi : s'.issued = s.issued := by
    rw [App.issued, hl, List.filterMap_append, List.filterMap_eq_nil_iff.2 hi, List.append_nil,
      App.issued]
  have hc : s'.committed = s.committed := by
    rw [App.committed, hl, List.filterMap_append, List.filterMap_eq_nil_iff.2 hc, List.append_nil,
      App.committed]
  exact ⟨rejected, by rwa [hi, hc, hp]⟩

/-- The writes that are left when write `j` is answered. -/
theorem perm_answer {j : ℕ} {w : Write} (hw : s.pending[j]? = some w) :
    (s.pending.map Write.content).Perm (w.content :: (s.answer j).pending.map Write.content) := by
  obtain ⟨hj, rfl⟩ := List.getElem?_eq_some_iff.1 hw
  exact ((List.getElem_cons_eraseIdx_perm hj).map Write.content).symm

theorem issues_creation (s : App) (w : Write) : (s.creation w).filterMap Event.issues = [] :=
  List.filterMap_eq_nil_iff.2 fun _ he => by
    obtain ⟨_, -, -, rfl⟩ := App.mem_creation he
    rfl

theorem issued_commit (s : App) (w : Write) : (s.commit w).issued = s.issued := by
  rw [App.issued, App.commit_log, List.filterMap_append, List.filterMap_cons]
  simp only [Event.issues, issues_creation, List.append_nil]
  rfl

/-- A step issues nothing, or the write of a continuation. -/
theorem issued_step (hs : step debug s a = some s') :
    s'.issued = s.issued ∨ ∃ i t w, a = .resume i .done ∧ s.tasks[i]? = some t ∧
      t.Issues s w ∧ s'.issued = s.issued ++ [w.content] := by
  have quiet {es : List Event} (hl : s'.log = s.log ++ es) (hi : ∀ e ∈ es, e.issues = none) :
      s'.issued = s.issued := by
    rw [App.issued, hl, List.filterMap_append, List.filterMap_eq_nil_iff.2 hi, List.append_nil,
      App.issued]
  cases App.step_stepped hs with
  | tap _ ht =>
    rcases ht.log with hl | hl
    · exact Or.inl (congrArg (List.filterMap Event.issues) hl)
    · exact Or.inl (quiet hl (List.forall_mem_singleton.2 rfl))
  | relaunch | dispose | reject => exact Or.inl rfl
  | located | geocode => exact Or.inl (quiet rfl (List.forall_mem_singleton.2 rfl))
  | commit => exact Or.inl (issued_commit _ _)
  | @resume i r t _ ht hr =>
    obtain ⟨w, -, hi, hw⟩ := (App.resume_resumed hr).issued_eq
    cases w with
    | none => exact Or.inl (hi.trans (List.append_nil _))
    | some w =>
      obtain ⟨hx, rfl⟩ := hw w rfl
      exact Or.inr ⟨i, t, w, rfl, ht, hx, hi⟩

/-- **The books of a step.** -/
theorem Balanced.step (h : Balanced s) (hs : Mazdoor.step debug s a = some s') :
    Balanced s' := by
  cases App.step_stepped hs with
  | tap _ ht =>
    rcases ht.log with hl | hl
    · exact h.still [] (by rw [hl, List.append_nil]) (by simp) (by simp) (by rw [ht.pending])
    · exact h.still _ hl (by simp [Event.issues]) (by simp [Event.commits]) (by rw [ht.pending])
  | relaunch =>
    refine h.still [] (List.append_nil _).symm (by simp) (by simp) ?_
    rw [App.relaunch_pending, List.map_map]
    rfl
  | dispose => exact h.still [] (List.append_nil _).symm (by simp) (by simp) rfl
  | located | geocode =>
    exact h.still _ rfl (by simp [Event.issues]) (by simp [Event.commits]) rfl
  | resume ht hr =>
    obtain ⟨w, hp, hi, -⟩ := (App.resume_resumed hr).issued_eq
    obtain ⟨es, hl, hes⟩ := (App.resume_resumed hr).log
    have hc : s'.committed = s.committed := by
      rw [App.committed, hl, List.filterMap_append, filterMap_commits hes, List.append_nil]
      rfl
    obtain ⟨rejected, hperm⟩ := h
    refine ⟨rejected, ?_⟩
    rw [hi, hc, hp, List.map_append]
    have : (s.committed ++ s.pending.map Write.content ++ rejected ++
          w.toList.map Write.content).Perm
        (s.committed ++ (s.pending.map Write.content ++ w.toList.map Write.content) ++
          rejected) := by
      simp only [List.append_assoc]
      exact ((List.perm_append_comm.append_left _).append_left _)
    exact (hperm.append_right _).trans this
  | @commit j w hw =>
    obtain ⟨rejected, hperm⟩ := h
    refine ⟨rejected, ?_⟩
    rw [committed_commit, issued_commit]
    refine hperm.trans (List.Perm.append_right _ ?_)
    rw [List.append_assoc]
    exact (perm_answer hw).append_left s.committed
  | @reject j w hw =>
    obtain ⟨rejected, hperm⟩ := h
    refine ⟨w.content :: rejected, ?_⟩
    have := ((perm_answer hw).append_left s.committed).append_right rejected
    refine hperm.trans (this.trans ?_)
    simp only [List.append_assoc, List.cons_append]
    exact (List.perm_middle.symm).append_left _

theorem Balanced.mem_issued_of_pending (h : Balanced s) {w : Write} (hw : w ∈ s.pending) :
    w.content ∈ s.issued := by
  obtain ⟨rejected, hperm⟩ := h
  refine hperm.mem_iff.2 (List.mem_append_left _ (List.mem_append_right _ ?_))
  exact List.mem_map_of_mem hw

theorem Balanced.mem_issued_of_committed (h : Balanced s) {x : Site × Fields}
    (hx : x ∈ s.committed) : x ∈ s.issued := by
  obtain ⟨rejected, hperm⟩ := h
  exact hperm.mem_iff.2 (List.mem_append_left _ (List.mem_append_left _ hx))

end

section
variable {debug : Bool} {ι : Type} [DecidableEq ι] {accounts : List Uid} {store : Store}
  {n : Fleet ι} {as : List (ι × Action)}

theorem books_of_run (hr : run (Fleet.step debug) (Fleet.launch accounts store) as = some n)
    (i : ι) : Balanced (n.app i) :=
  Shared.run_invariant_local (M := device debug) (J := fun _ => Balanced)
    (fun _ _ _ _ h hs => h.step hs) (fun _ _ _ h => h) (fun _ => ⟨[], List.Perm.refl _⟩) hr i

theorem issued_of_committed (hr : run (Fleet.step debug) (Fleet.launch accounts store) as = some n)
    {i : ι} {x : Site × Fields} (hx : x ∈ (n.app i).committed) : x ∈ (n.app i).issued :=
  (books_of_run hr i).mem_issued_of_committed hx

end

/-! ## A run of two devices -/

/-- A device signs in to an account that exists, and stores locations. -/
def returningDevice : List Action :=
  [.resume 0 .done, .facebookSignIn, .resume 0 .done, .resume 0 (.credential "A"),
    .resume 0 .done, .position 2 ⟨30, 70⟩, .continueLocation, .resume 1 .done, .resume 1 .done,
    .resume 1 .done, .commit 0, .resume 1 .done, .openMap, .proceed, .resume 1 .done,
    .resume 1 .done, .resume 1 .done, .reject 0]

def mason : Labor := ⟨"7", some "Mason", some "Ali", some "t", some 1, some 2⟩

/-- One device registers an account, stores its location and sends a request; a
    second device signs in to the same account. -/
def twoDevices : List (ℕ × Action) :=
  facebookRegistration.map (0, ·) ++ returningDevice.map (1, ·) ++
    [.resume 0 .done, .position 3 ⟨31, 74⟩, .continueLocation, .resume 1 .done, .resume 1 .done,
      .resume 1 .done, .resume 1 .done, .commit 0, .openMap, .tapMarker mason, .resume 1 .done,
      .commit 0, .resume 1 .done, .resume 1 .done, .commit 0].map (0, ·)

end Mazdoor
