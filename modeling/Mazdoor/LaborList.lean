/-
  The list of labors (`lib/Screens/laborList.dart`).

  A button of a labor's card stores an address in the field `phoneNumber` and hands
  it to `callNumber`, which awaits `canLaunch` and `launch`; other buttons can be
  pressed in between.

  * `callUrl`: the address of a button, null if its expression throws;
  * `LaborList.step`: the presses, and the completions of what was awaited;
  * `Kept`: every press is launched, failed or under way, once, and every error
    names the address that was stored last;
  * `errors_of_run`: the error of a call names its own address if and only if that
    is still the stored one.
-/
import Mathlib.Data.List.Perm.Basic
import Mazdoor.Lib.Merges
import Mazdoor.Lib.Shared
import Mazdoor.Data

namespace Mazdoor

open Transition

/-- The buttons of a card. -/
inductive Button where
  | message
  | call
  deriving DecidableEq

def Button.scheme : Button → String
  | .message => "sms:"
  | .call => "tel://"

/-- `"sms:" + allLabor["laborPhoneNumber"]`, or with `"tel://"`; it throws unless the
    field is a string. -/
def callUrl (b : Button) (allLabor : Doc) : Option String :=
  match field allLabor "laborPhoneNumber" with
  | .str phone => some (b.scheme ++ phone)
  | _ => none

namespace LaborList

/-- `callNumber` at its awaits. -/
inductive Call where
  | canLaunch (url : String)
  | launch (url : String)
  deriving DecidableEq

def Call.url : Call → String
  | .canLaunch url | .launch url => url

/-- What is seen of the calls. -/
inductive Event where
  /-- the address is stored, and `callNumber` starts -/
  | stored (url : String)
  /-- `launch` has completed -/
  | launched (url : String)
  /-- `callNumber(url)` throws its own error -/
  | error (url text : String)
  /-- an awaited future completes with an error -/
  | failed (url : String)
  deriving DecidableEq

inductive Action where
  | press (b : Button) (allLabor : Doc)
  /-- `canLaunch` answers the call `i` -/
  | answer (i : ℕ) (result : Bool)
  /-- `launch` completes for the call `i` -/
  | complete (i : ℕ)
  /-- what the call `i` awaits fails -/
  | fail (i : ℕ)

end LaborList

/-- `_LaborListState`, its calls under way, and what was seen of them. -/
structure LaborList where
  phoneNumber : Option String := none
  calls : List LaborList.Call := []
  log : List LaborList.Event := []

namespace LaborList

def step (s : LaborList) : Action → Option LaborList
  | .press b allLabor =>
    match callUrl b allLabor with
    | some url => some ⟨some url, s.calls ++ [.canLaunch url], s.log ++ [.stored url]⟩
    | none => some s
  | .answer i result =>
    match s.calls[i]? with
    | some (.canLaunch url) =>
      if result then some { s with calls := s.calls.eraseIdx i ++ [.launch url] }
      else some { s with
        calls := s.calls.eraseIdx i
        log := s.log ++ [.error url ("could not call " ++ toStringOrNull s.phoneNumber)] }
    | _ => none
  | .complete i =>
    match s.calls[i]? with
    | some (.launch url) =>
      some { s with calls := s.calls.eraseIdx i, log := s.log ++ [.launched url] }
    | _ => none
  | .fail i =>
    match s.calls[i]? with
    | some c => some { s with calls := s.calls.eraseIdx i, log := s.log ++ [.failed c.url] }
    | none => none

/-! ## Invariants -/

/-- The address that an event stores, and the one whose call it ends. -/
def Event.opens : Event → Option String
  | .stored url => some url
  | _ => none

def Event.closes : Event → Option String
  | .stored _ => none
  | .launched url | .error url _ | .failed url => some url

/-- An error is about an address that was stored, and names the one stored last. -/
def Named (l : List Event) (e : Event) : Prop :=
  ∀ url text, e = .error url text → .stored url ∈ l ∧
    ∃ last, (l.filterMap Event.opens).getLast? = some last ∧ text = "could not call " ++ last

structure Kept (s : LaborList) : Prop where
  last : s.phoneNumber = (s.log.filterMap Event.opens).getLast?
  books : (s.log.filterMap Event.opens).Perm
    (s.log.filterMap Event.closes ++ s.calls.map Call.url)
  named : Shared.Preceded Named s.log

section
variable {s s' : LaborList} {a : Action} {as : List Action}

theorem mem_opens {l : List Event} {url : String} (h : url ∈ l.filterMap Event.opens) :
    .stored url ∈ l := by
  obtain ⟨e, he, hu⟩ := List.mem_filterMap.1 h
  cases e <;> simp only [Event.opens, Option.some.injEq, reduceCtorEq] at hu
  exact hu ▸ he

/-- The address of a call under way was stored. -/
theorem Kept.stored (h : Kept s) {i : ℕ} {c : Call} (hc : s.calls[i]? = some c) :
    .stored c.url ∈ s.log :=
  mem_opens (h.books.mem_iff.2
    (List.mem_append_right _ (List.mem_map_of_mem (List.mem_of_getElem? hc))))

/-- A call ends. -/
theorem Kept.close (h : Kept s) {i : ℕ} {c : Call} {e : Event} (hc : s.calls[i]? = some c)
    (ho : e.opens = none) (he : e.closes = some c.url) (hn : Named s.log e) :
    Kept { s with calls := s.calls.eraseIdx i, log := s.log ++ [e] } := by
  have hopens : (s.log ++ [e]).filterMap Event.opens = s.log.filterMap Event.opens := by
    simp [ho]
  constructor
  · exact hopens ▸ h.last
  · obtain ⟨hi, rfl⟩ := List.getElem?_eq_some_iff.1 hc
    have hperm := (List.getElem_cons_eraseIdx_perm hi).map Call.url
    show (List.filterMap Event.opens (s.log ++ [e])).Perm _
    rw [hopens, List.filterMap_append, List.filterMap_cons, he, List.append_assoc]
    exact h.books.trans (hperm.symm.append_left _)
  · refine h.named.append fun l₁ x l₂ heq => ?_
    obtain ⟨rfl, hx⟩ : l₁ = [] ∧ x = e := by
      cases l₁ with
      | nil => exact ⟨rfl, (List.cons.inj heq).1.symm⟩
      | cons y l₁ => simp at heq
    rwa [hx, List.append_nil]

theorem named_of_ne {l : List Event} {e : Event} (h : ∀ url text, e ≠ .error url text) :
    Named l e := fun url text he => absurd he (h url text)

theorem Kept.step (h : Kept s) (hs : LaborList.step s a = some s') : Kept s' := by
  cases a with
  | press b allLabor =>
    simp only [LaborList.step] at hs
    cases hu : callUrl b allLabor with
    | none =>
      obtain rfl : s = s' := by simpa [hu] using hs
      exact h
    | some url =>
      obtain rfl : _ = s' := by simpa [hu] using hs
      constructor
      · simp [Event.opens]
      · have := h.books.append_right [url]
        simpa [Event.opens, Event.closes, Call.url, List.filterMap_cons] using this
      · refine h.named.append fun l₁ x l₂ heq => ?_
        cases l₁ with
        | nil => exact named_of_ne (by simp [← (List.cons.inj heq).1])
        | cons y l₁ => simp at heq
  | answer i result =>
    simp only [LaborList.step] at hs
    cases hc : s.calls[i]? with
    | none => simp [hc] at hs
    | some c =>
      cases c with
      | launch url => simp [hc] at hs
      | canLaunch url =>
        cases result with
        | true =>
          obtain rfl : _ = s' := by simpa [hc] using hs
          obtain ⟨hi, hcl⟩ := List.getElem?_eq_some_iff.1 hc
          refine ⟨h.last, h.books.trans ?_, h.named⟩
          have hperm := (List.getElem_cons_eraseIdx_perm hi).map Call.url
          rw [hcl] at hperm
          refine List.Perm.append_left _ (hperm.symm.trans ?_)
          rw [List.map_append]
          exact (List.perm_append_singleton _ _).symm
        | false =>
          obtain rfl : _ = s' := by simpa [hc] using hs
          refine h.close hc rfl rfl fun url' text he => ?_
          obtain ⟨rfl, rfl⟩ := Event.error.inj he
          have hstored : .stored url ∈ s.log := h.stored hc
          -- something was stored, so there is a last address
          have hne : s.log.filterMap Event.opens ≠ [] := List.ne_nil_of_mem
            (List.mem_filterMap.2 ⟨_, hstored, rfl⟩)
          obtain ⟨last, hlast⟩ := List.getLast?_isSome.2 hne |> Option.isSome_iff_exists.1
          exact ⟨hstored, last, hlast, by rw [h.last, hlast]; rfl⟩
  | complete i =>
    simp only [LaborList.step] at hs
    cases hc : s.calls[i]? with
    | none => simp [hc] at hs
    | some c =>
      cases c with
      | canLaunch url => simp [hc] at hs
      | launch url =>
        obtain rfl : _ = s' := by simpa [hc] using hs
        exact h.close hc rfl rfl (named_of_ne (by simp))
  | fail i =>
    simp only [LaborList.step] at hs
    cases hc : s.calls[i]? with
    | none => simp [hc] at hs
    | some c =>
      obtain rfl : _ = s' := by simpa [hc] using hs
      exact h.close hc rfl rfl (named_of_ne (by simp))

theorem kept_of_run (hr : run LaborList.step {} as = some s) : Kept s :=
  run_invariant' (I := Kept) (fun _ _ _ h hs => h.step hs)
    ⟨rfl, List.Perm.refl _, fun l₁ e l₂ h => by simp at h⟩ hr

/-- **Errors.**  In every run every error of `callNumber` is about an address that
    was stored before it, but names the one that was stored last: its own if and only
    if they are the same. -/
theorem errors_of_run (hr : run LaborList.step {} as = some s) {l₁ l₂ : List Event}
    {url text : String} (hl : s.log = l₁ ++ .error url text :: l₂) :
    .stored url ∈ l₁ ∧ ∃ last, (l₁.filterMap Event.opens).getLast? = some last ∧
      text = "could not call " ++ last ∧ (text = "could not call " ++ url ↔ last = url) := by
  obtain ⟨hs, last, hlast, htext⟩ := (kept_of_run hr).named l₁ _ l₂ hl url text rfl
  refine ⟨hs, last, hlast, htext, ?_⟩
  rw [htext, String.append_right_inj]

/-- A card of the list. -/
def card (phone : String) : Doc :=
  DocStore.merge DocStore.emptyDoc [("laborPhoneNumber", .str phone)]

/-- Two labors are pressed, and `canLaunch` then answers the first call. -/
theorem errors_two_labors :
    ∃ s, run LaborList.step {} [.press .call (card "1"), .press .message (card "2"),
        .answer 0 false] = some s ∧
      s.log = [.stored "tel://1", .stored "sms:2"] ++
        .error "tel://1" "could not call sms:2" :: [] ∧
      .stored "tel://1" ∈ [Event.stored "tel://1", .stored "sms:2"] ∧
      ∃ last, ([Event.stored "tel://1", .stored "sms:2"].filterMap Event.opens).getLast? =
        some last ∧ "could not call sms:2" = "could not call " ++ last ∧
        ("could not call sms:2" = "could not call " ++ "tel://1" ↔ last = "tel://1") :=
  ⟨_, rfl, rfl, @errors_of_run _ [.press .call (card "1"), .press .message (card "2"),
    .answer 0 false] rfl [.stored "tel://1", .stored "sms:2"] [] "tel://1" "could not call sms:2"
    rfl⟩

end
end LaborList
end Mazdoor
