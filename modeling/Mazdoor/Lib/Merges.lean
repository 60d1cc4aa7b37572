/-
  Sequences of merges into one document.

  * `merge_merge_of_subset`: a merge hides an earlier one of the same fields;
    `merge_comm`: merges of different fields commute;
  * `mergeAll` applies the merges of a list, the first of which creates the
    document if it is missing;
  * `mergeAll_eq_last`: when the merges are of two kinds, with fields of their own,
    only the last merge of each kind is left to see.
-/
import Mathlib.Data.List.Induction
import Mazdoor.Lib.DocStore

namespace DocStore

variable {κ ν α : Type} [DecidableEq κ]

/-- The fields that a merge writes. -/
def keys (fs : List (κ × ν)) : List κ := fs.map Prod.fst

theorem merge_merge_of_subset {fs gs : List (κ × ν)} (h : keys fs ⊆ keys gs) (d : Doc κ ν) :
    merge (merge d fs) gs = merge d gs := by
  funext k
  by_cases hg : k ∈ keys gs
  · exact merge_eq_of_mem hg _ _
  · have hf : k ∉ keys fs := fun hf => hg (h hf)
    rw [merge_of_notMem hg, merge_of_notMem hg, merge_of_notMem hf]

theorem merge_comm {fs gs : List (κ × ν)} (h : (keys fs).Disjoint (keys gs)) (d : Doc κ ν) :
    merge (merge d fs) gs = merge (merge d gs) fs := by
  funext k
  by_cases hg : k ∈ keys gs
  · have hf : k ∉ keys fs := fun hf => h hf hg
    rw [merge_of_notMem hf]
    exact merge_eq_of_mem hg _ _
  · rw [merge_of_notMem hg]
    by_cases hf : k ∈ keys fs
    · exact merge_eq_of_mem hf _ _
    · rw [merge_of_notMem hf, merge_of_notMem hf, merge_of_notMem hg]

/-- Merge into a document that is created if missing. -/
def mergeInto (d : Option (Doc κ ν)) (fs : List (κ × ν)) : Option (Doc κ ν) :=
  some (merge (d.getD emptyDoc) fs)

/-- One merge after the other. -/
def mergeAll (d : Option (Doc κ ν)) (ws : List (List (κ × ν))) : Option (Doc κ ν) :=
  ws.foldl mergeInto d

@[simp]
theorem mergeAll_nil (d : Option (Doc κ ν)) : mergeAll d [] = d := rfl

@[simp]
theorem mergeAll_cons (d : Option (Doc κ ν)) (fs : List (κ × ν)) (ws : List (List (κ × ν))) :
    mergeAll d (fs :: ws) = mergeAll (mergeInto d fs) ws := rfl

theorem mergeAll_append (d : Option (Doc κ ν)) (ws ws' : List (List (κ × ν))) :
    mergeAll d (ws ++ ws') = mergeAll (mergeAll d ws) ws' :=
  List.foldl_append

theorem mergeInto_mergeInto {fs gs : List (κ × ν)} (h : keys fs ⊆ keys gs)
    (d : Option (Doc κ ν)) : mergeInto (mergeInto d fs) gs = mergeInto d gs :=
  congrArg some (merge_merge_of_subset h _)

theorem mergeInto_comm {fs gs : List (κ × ν)} (h : (keys fs).Disjoint (keys gs))
    (d : Option (Doc κ ν)) : mergeInto (mergeInto d fs) gs = mergeInto (mergeInto d gs) fs :=
  congrArg some (merge_comm h _)

/-- The last entry of a list that satisfies `q`. -/
def lastOf (q : α → Bool) (xs : List α) : Option α := (xs.filter q).getLast?

theorem lastOf_concat (q : α → Bool) (xs : List α) (x : α) :
    lastOf q (xs ++ [x]) = if q x then some x else lastOf q xs := by
  unfold lastOf
  rw [List.filter_append]
  by_cases h : q x <;> simp [h]

theorem mem_of_lastOf {q : α → Bool} {xs : List α} {x : α} (h : lastOf q xs = some x) :
    x ∈ xs ∧ q x :=
  List.mem_filter.1 (List.mem_of_getLast? h)

/-- **Overlay.**  Merges of two kinds, told apart by `q`, whose fields are `ks` or
    `ls`, amount to the last merge of the one kind and the last of the other. -/
theorem mergeAll_eq_last {ks ls : List κ} (h : ks.Disjoint ls) (q : α → Bool)
    (f : α → List (κ × ν)) (d : Option (Doc κ ν)) {xs : List α}
    (hk : ∀ x ∈ xs, q x → keys (f x) = ks) (hl : ∀ x ∈ xs, q x = false → keys (f x) = ls) :
    mergeAll d (xs.map f) =
      mergeAll d ((lastOf q xs).toList.map f ++ (lastOf (!q ·) xs).toList.map f) := by
  induction xs using List.reverseRecOn with
  | nil => rfl
  | append_singleton xs x ih =>
    have hk' : ∀ y ∈ xs, q y → keys (f y) = ks := fun y hy => hk y (List.mem_append_left _ hy)
    have hl' : ∀ y ∈ xs, q y = false → keys (f y) = ls := fun y hy =>
      hl y (List.mem_append_left _ hy)
    have hx : x ∈ xs ++ [x] := List.mem_append_right _ (List.mem_singleton_self x)
    -- the last merges so far
    have hr : ∀ y ∈ lastOf q xs, keys (f y) = ks := fun y hy =>
      hk' y (mem_of_lastOf hy).1 (mem_of_lastOf hy).2
    have hs : ∀ y ∈ lastOf (!q ·) xs, keys (f y) = ls := fun y hy =>
      hl' y (mem_of_lastOf hy).1 (by simpa using (mem_of_lastOf hy).2)
    rw [List.map_append, mergeAll_append, ih hk' hl', lastOf_concat, lastOf_concat]
    cases hq : q x with
    | true =>
      have hfx : keys (f x) = ks := hk x hx hq
      have hcomm : ∀ y ∈ lastOf (!q ·) xs, (keys (f y)).Disjoint (keys (f x)) := fun y hy => by
        rw [hs y hy, hfx]
        exact fun k hl hk => h hk hl
      have hsub : ∀ y ∈ lastOf q xs, keys (f y) ⊆ keys (f x) := fun y hy => by
        rw [hr y hy, hfx]
        exact List.Subset.refl _
      cases hlast : lastOf (!q ·) xs with
      | none => cases hlast' : lastOf q xs with
        | none => simp
        | some y => simp [mergeInto_mergeInto (hsub y hlast')]
      | some z => cases hlast' : lastOf q xs with
        | none => simp [mergeInto_comm (hcomm z hlast)]
        | some y => simp [mergeInto_comm (hcomm z hlast), mergeInto_mergeInto (hsub y hlast')]
    | false =>
      have hfx : keys (f x) = ls := hl x hx hq
      have hsub : ∀ y ∈ lastOf (!q ·) xs, keys (f y) ⊆ keys (f x) := fun y hy => by
        rw [hs y hy, hfx]
        exact List.Subset.refl _
      cases hlast : lastOf (!q ·) xs with
      | none => simp [mergeAll_append]
      | some z => simp [mergeAll_append, mergeInto_mergeInto (hsub z hlast)]

end DocStore
