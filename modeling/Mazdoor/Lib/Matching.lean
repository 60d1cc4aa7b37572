/-
  Entries with places of their own in a list.

  * `Matched R xs l`: every entry of the multiset `xs` has a place of the list
    `l` for itself, whose content `R` relates to it;
  * `Matched.advance`: an entry moves on with its place, or leaves it;
  * `Matched.set_of_not`: a place that is no entry's may change;
  * `Matched.append`, `Matched.push`: new places, and an entry for one of them.
-/
import Mathlib.Data.Multiset.AddSub
import Mathlib.Data.Multiset.MapFold

namespace Matching

variable {α β : Type*}

/-- The place `j` has a content for `x`. -/
def At (R : α → β → Prop) (l : List β) (x : α) (j : ℕ) : Prop := ∃ p, l[j]? = some p ∧ R x p

/-- Every entry of `xs` has a place of `l` for itself. -/
def Matched (R : α → β → Prop) (xs : Multiset α) (l : List β) : Prop :=
  ∃ m : Multiset ℕ, m.Nodup ∧ Multiset.Rel (At R l) xs m

variable {R : α → β → Prop} {x y : α} {xs ys : Multiset α} {l : List β} {j : ℕ} {p q : β}

theorem At.append (h : At R l x j) (ps : List β) : At R (l ++ ps) x j := by
  obtain ⟨p, hp, hR⟩ := h
  exact ⟨p, by rw [List.getElem?_append_left (List.getElem?_eq_some_iff.1 hp).1, hp], hR⟩

theorem At.set_of_ne {k : ℕ} (h : At R l x k) (hne : j ≠ k) : At R (l.set j q) x k := by
  obtain ⟨p, hp, hR⟩ := h
  exact ⟨p, (List.getElem?_set_ne hne).trans hp, hR⟩

namespace Matched

theorem zero (l : List β) : Matched R 0 l := ⟨0, Multiset.nodup_zero, .zero⟩

theorem erase (h : Matched R (x ::ₘ xs) l) : Matched R xs l := by
  obtain ⟨m, hn, hm⟩ := h
  obtain ⟨j, m', -, hm', rfl⟩ := Multiset.rel_cons_left.1 hm
  exact ⟨m', (Multiset.nodup_cons.1 hn).2, hm'⟩

theorem of_add (h : Matched R (xs + ys) l) : Matched R ys l := by
  induction xs using Multiset.induction with
  | empty => rwa [Multiset.zero_add] at h
  | cons x xs ih =>
    rw [Multiset.cons_add] at h
    exact ih h.erase

/-- The entries change, and not their places. -/
theorem map {γ : Type*} {R' : γ → β → Prop} {f : α → γ} (h : Matched R xs l)
    (hf : ∀ x p, R x p → R' (f x) p) : Matched R' (xs.map f) l := by
  obtain ⟨m, hn, hm⟩ := h
  refine ⟨m, hn, Multiset.rel_map_left.2 (hm.mono ?_)⟩
  rintro x - j - ⟨p, hp, hR⟩
  exact ⟨p, hp, hf x p hR⟩

/-- **An entry moves.**  Its place may get a new content, and the entry that
    goes on from there, if there is one, has that place. -/
theorem advance (h : Matched R (x ::ₘ xs) l) :
    ∃ j p, l[j]? = some p ∧ R x p ∧ ∀ q, Matched R xs (l.set j q) ∧
      ∀ y, R y q → Matched R (y ::ₘ xs) (l.set j q) := by
  obtain ⟨m, hn, hm⟩ := h
  obtain ⟨j, m', ⟨p, hp, hR⟩, hm', rfl⟩ := Multiset.rel_cons_left.1 hm
  obtain ⟨hj, hn'⟩ := Multiset.nodup_cons.1 hn
  have hself (q : β) : (l.set j q)[j]? = some q :=
    List.getElem?_set_self (List.getElem?_eq_some_iff.1 hp).1
  have hrest (q : β) : Multiset.Rel (At R (l.set j q)) xs m' :=
    hm'.mono fun x _ k hk hx => hx.set_of_ne fun h => hj (h ▸ hk)
  exact ⟨j, p, hp, hR, fun q => ⟨⟨m', hn', hrest q⟩,
    fun y hy => ⟨j ::ₘ m', hn, .cons ⟨q, hself q, hy⟩ (hrest q)⟩⟩⟩

/-- An entry is replaced by one that its place has the content for as well. -/
theorem replace (h : Matched R (x ::ₘ xs) l) (hxy : ∀ p, R x p → R y p) :
    Matched R (y ::ₘ xs) l := by
  obtain ⟨m, hn, hm⟩ := h
  obtain ⟨j, m', ⟨p, hp, hR⟩, hm', rfl⟩ := Multiset.rel_cons_left.1 hm
  exact ⟨j ::ₘ m', hn, .cons ⟨p, hp, hxy p hR⟩ hm'⟩

theorem set_of_not (h : Matched R xs l) (hp : l[j]? = some p) (hR : ∀ x, ¬ R x p) (q : β) :
    Matched R xs (l.set j q) := by
  obtain ⟨m, hn, hm⟩ := h
  refine ⟨m, hn, hm.mono fun x _ k _ hx => hx.set_of_ne ?_⟩
  rintro rfl
  obtain ⟨p', hp', hx⟩ := hx
  obtain rfl := Option.some.inj (hp.symm.trans hp')
  exact hR x hx

theorem append (h : Matched R xs l) (ps : List β) : Matched R xs (l ++ ps) := by
  obtain ⟨m, hn, hm⟩ := h
  exact ⟨m, hn, hm.mono fun _ _ _ _ hx => hx.append ps⟩

/-- A new entry at a new place. -/
theorem push (h : Matched R xs l) (hy : R y q) : Matched R (y ::ₘ xs) (l ++ [q]) := by
  obtain ⟨m, hn, hm⟩ := h
  have hnew : l.length ∉ m := fun hmem => by
    obtain ⟨x, -, p, hp, -⟩ := Multiset.exists_mem_of_rel_of_mem (Multiset.rel_flip.2 hm) hmem
    exact lt_irrefl _ (List.getElem?_eq_some_iff.1 hp).1
  exact ⟨l.length ::ₘ m, Multiset.nodup_cons.2 ⟨hnew, hn⟩,
    .cons ⟨q, by simp, hy⟩ (hm.mono fun _ _ _ _ hx => hx.append [q])⟩

end Matched

end Matching
