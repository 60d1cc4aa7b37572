/-
  Two lists that agree entry by entry, as far as a label for each entry says.

  * `Labelled R`: the relation of three lists of one length;
  * `Labelled.append`, `Labelled.eraseIdx`: entries that come and go in all
    three; `Labelled.getElem?`: what an entry of the first list is related to;
  * `forall₂_eraseIdx`, `forall₂_getElem?`: the same for two lists;
    `forall₂_getLast?`: their last entries are related.
-/
import Mathlib.Data.List.Forall2

variable {ι α β : Type*}

inductive Labelled (R : ι → α → β → Prop) : List ι → List α → List β → Prop
  | nil : Labelled R [] [] []
  | cons {i : ι} {a : α} {b : β} {is : List ι} {as : List α} {bs : List β} (h : R i a b)
      (hs : Labelled R is as bs) : Labelled R (i :: is) (a :: as) (b :: bs)

namespace Labelled

variable {R : ι → α → β → Prop} {is is' : List ι} {as as' : List α} {bs bs' : List β}

theorem length_eq (h : Labelled R is as bs) : is.length = as.length := by
  induction h with
  | nil => rfl
  | cons _ _ ih => exact congrArg (· + 1) ih

theorem append (h : Labelled R is as bs) (h' : Labelled R is' as' bs') :
    Labelled R (is ++ is') (as ++ as') (bs ++ bs') := by
  induction h with
  | nil => exact h'
  | cons hab _ ih => exact .cons hab ih

/-- Entries that are related to themselves under every label. -/
theorem replicate {R : ι → α → α → Prop} {i : ι} (h : ∀ a ∈ as, R i a a) :
    Labelled R (List.replicate as.length i) as as := by
  induction as with
  | nil => exact .nil
  | cons a as ih =>
    obtain ⟨ha, h⟩ := List.forall_mem_cons.1 h
    exact .cons ha (ih h)

theorem eraseIdx (h : Labelled R is as bs) (n : ℕ) :
    Labelled R (is.eraseIdx n) (as.eraseIdx n) (bs.eraseIdx n) := by
  induction h generalizing n with
  | nil => exact .nil
  | cons hab h ih =>
    cases n with
    | zero => exact h
    | succ n => exact .cons hab (ih n)

theorem getElem? (h : Labelled R is as bs) {n : ℕ} {a : α} (ha : as[n]? = some a) :
    ∃ i b, is[n]? = some i ∧ bs[n]? = some b ∧ R i a b := by
  induction h generalizing n with
  | nil => simp at ha
  | cons hab _ ih =>
    cases n with
    | zero => exact ⟨_, _, rfl, rfl, Option.some.inj ha ▸ hab⟩
    | succ n => exact ih ha

end Labelled

theorem forall₂_getElem? {α β : Type} {R : α → β → Prop} {as : List α} {bs : List β}
    (h : List.Forall₂ R as bs) {i : ℕ} {a : α} (ha : as[i]? = some a) :
    ∃ b, bs[i]? = some b ∧ R a b := by
  induction h generalizing i with
  | nil => simp at ha
  | cons hab _ ih =>
    cases i with
    | zero => exact ⟨_, rfl, Option.some.inj ha ▸ hab⟩
    | succ i => exact ih ha

theorem forall₂_eraseIdx {α β : Type} {R : α → β → Prop} {as : List α} {bs : List β}
    (h : List.Forall₂ R as bs) (i : ℕ) : List.Forall₂ R (as.eraseIdx i) (bs.eraseIdx i) := by
  induction h generalizing i with
  | nil => exact .nil
  | cons hab h ih =>
    cases i with
    | zero => exact h
    | succ i => exact .cons hab (ih i)

theorem forall₂_getLast? {α β : Type} {R : α → β → Prop} {as : List α} {bs : List β}
    (h : List.Forall₂ R as bs) : Option.Rel R as.getLast? bs.getLast? := by
  have h := List.forall₂_reverse_iff.2 h
  rw [← List.head?_reverse, ← List.head?_reverse]
  generalize as.reverse = as', bs.reverse = bs' at h ⊢
  cases h with
  | nil => exact .none
  | cons h => exact .some h
