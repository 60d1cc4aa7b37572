/-
  Document stores: finite maps from paths to documents.

  A path is a list of segments; a document maps field names to values, and a
  field may be absent.  A write replaces a document (`setData`), merges its
  fields into a document that is created if missing (`mergeData`), or merges
  them into a document that must exist (`updateData`).

  * `merge_of_notMem`, `merge_of_mem`: the fields of a merged document;
  * `lookup_setData`, `lookup_mergeData`, `lookup_updateData`: a write changes
    the document at its own path and no other;
  * `children` are the ids directly under a collection, `query` the documents
    of a collection with a given value in a field.
-/
import Mathlib.Data.List.AList

namespace DocStore

variable {σ κ ν : Type} [DecidableEq σ] [DecidableEq κ]

/-- A document: the values of the fields that are present. -/
abbrev Doc (κ ν : Type) : Type := κ → Option ν

/-- The document without fields. -/
def emptyDoc : Doc κ ν := fun _ => none

/-- Write the fields `fs` over the document `d`. -/
def merge (d : Doc κ ν) (fs : List (κ × ν)) : Doc κ ν :=
  fs.foldl (fun d f => Function.update d f.1 (some f.2)) d

theorem merge_cons (d : Doc κ ν) (f : κ × ν) (fs : List (κ × ν)) :
    merge d (f :: fs) = merge (Function.update d f.1 (some f.2)) fs := rfl

theorem merge_of_notMem {k : κ} {fs : List (κ × ν)} (h : k ∉ fs.map Prod.fst) (d : Doc κ ν) :
    merge d fs k = d k := by
  induction fs generalizing d with
  | nil => rfl
  | cons f fs ih =>
    rw [List.map_cons, List.mem_cons, not_or] at h
    rw [merge_cons, ih h.2, Function.update_of_ne h.1]

/-- A merged field has a value of the write, whatever the document was. -/
theorem merge_of_mem {k : κ} {fs : List (κ × ν)} (h : k ∈ fs.map Prod.fst) (d : Doc κ ν) :
    ∃ v, (k, v) ∈ fs ∧ ∀ d' : Doc κ ν, merge d' fs k = some v := by
  induction fs generalizing d with
  | nil => simp at h
  | cons f fs ih =>
    by_cases hk : k ∈ fs.map Prod.fst
    · obtain ⟨v, hv, he⟩ := ih hk d
      exact ⟨v, List.mem_cons_of_mem _ hv, fun d' => he _⟩
    · rw [List.map_cons, List.mem_cons, or_iff_left hk] at h
      subst h
      exact ⟨f.2, List.mem_cons_self, fun d' => by
        rw [merge_cons, merge_of_notMem hk, Function.update_self]⟩

/-- The merged fields do not depend on the document that they are merged into. -/
theorem merge_eq_of_mem {k : κ} {fs : List (κ × ν)} (h : k ∈ fs.map Prod.fst) (d d' : Doc κ ν) :
    merge d fs k = merge d' fs k := by
  obtain ⟨v, -, hv⟩ := merge_of_mem h d
  rw [hv, hv]

/-- A store: the documents at finitely many paths. -/
abbrev Store (σ κ ν : Type) : Type := AList fun _ : List σ => Doc κ ν

/-- Replace the document at `p`. -/
def setData (st : Store σ κ ν) (p : List σ) (fs : List (κ × ν)) : Store σ κ ν :=
  st.insert p (merge emptyDoc fs)

/-- Merge `fs` into the document at `p`, which is created if missing. -/
def mergeData (st : Store σ κ ν) (p : List σ) (fs : List (κ × ν)) : Store σ κ ν :=
  st.insert p (merge ((st.lookup p).getD emptyDoc) fs)

/-- Merge `fs` into the document at `p`; without effect if there is none. -/
def updateData (st : Store σ κ ν) (p : List σ) (fs : List (κ × ν)) : Store σ κ ν :=
  match st.lookup p with
  | some d => st.insert p (merge d fs)
  | none => st

/-- The ids of the documents directly under the collection `c`. -/
def children (st : Store σ κ ν) (c : List σ) : List σ :=
  st.keys.filterMap fun p => if p.dropLast = c then p.getLast? else none

/-- The paths of the documents of the collection `c` whose field `k` is `v`. -/
def query [DecidableEq ν] (st : Store σ κ ν) (c : List σ) (k : κ) (v : ν) : List (List σ) :=
  st.entries.filterMap fun e =>
    if e.1 ≠ [] ∧ e.1.dropLast = c ∧ e.2 k = some v then some e.1 else none

section
variable (st : Store σ κ ν) (p q : List σ) (fs : List (κ × ν))

theorem lookup_setData :
    (setData st p fs).lookup q = if q = p then some (merge emptyDoc fs) else st.lookup q := by
  unfold setData
  split_ifs with h
  · rw [h, AList.lookup_insert]
  · rw [AList.lookup_insert_ne h]

theorem lookup_mergeData :
    (mergeData st p fs).lookup q =
      if q = p then some (merge ((st.lookup p).getD emptyDoc) fs) else st.lookup q := by
  unfold mergeData
  split_ifs with h
  · rw [h, AList.lookup_insert]
  · rw [AList.lookup_insert_ne h]

theorem lookup_updateData :
    (updateData st p fs).lookup q =
      if q = p then (st.lookup p).map (merge · fs) else st.lookup q := by
  unfold updateData
  cases hp : st.lookup p with
  | none =>
    split_ifs with h
    · rw [h, hp]; rfl
    · rfl
  | some d =>
    split_ifs with h
    · rw [h, AList.lookup_insert]; rfl
    · rw [AList.lookup_insert_ne h]

end

omit [DecidableEq κ] in
theorem mem_children {st : Store σ κ ν} {c : List σ} {x : σ} :
    x ∈ children st c ↔ c ++ [x] ∈ st := by
  simp only [children, List.mem_filterMap, AList.mem_keys]
  constructor
  · rintro ⟨p, hp, h⟩
    split_ifs at h with hc
    obtain ⟨ys, rfl⟩ := List.getLast?_eq_some_iff.1 h
    rw [List.dropLast_concat] at hc
    exact hc ▸ hp
  · intro h
    exact ⟨c ++ [x], h, by simp⟩

omit [DecidableEq κ] in
theorem mem_query [DecidableEq ν] {st : Store σ κ ν} {c : List σ} {k : κ} {v : ν} {p : List σ}
    (h : p ∈ query st c k v) : ∃ d, st.lookup p = some d ∧ d k = some v ∧ p ≠ [] ∧ p.dropLast = c := by
  obtain ⟨e, he, hp⟩ := List.mem_filterMap.1 h
  split_ifs at hp with hc
  obtain rfl := Option.some.inj hp
  exact ⟨e.2, AList.mem_lookup_iff.2 he, hc.2.2, hc.1, hc.2.1⟩

/-! ## Keys -/

section
variable {st₁ st₂ : Store σ κ ν}

omit [DecidableEq κ] in
theorem isSome_lookup_congr (h : st₁.keys = st₂.keys) (p : List σ) :
    (st₁.lookup p).isSome = (st₂.lookup p).isSome := by
  rw [Bool.eq_iff_iff, AList.lookup_isSome, AList.lookup_isSome, AList.mem_keys, h,
    AList.mem_keys]

theorem keys_setData (h : st₁.keys = st₂.keys) (p : List σ) (fs₁ fs₂ : List (κ × ν)) :
    (setData st₁ p fs₁).keys = (setData st₂ p fs₂).keys := by
  rw [setData, setData, AList.keys_insert, AList.keys_insert, h]

theorem keys_mergeData (h : st₁.keys = st₂.keys) (p : List σ) (fs₁ fs₂ : List (κ × ν)) :
    (mergeData st₁ p fs₁).keys = (mergeData st₂ p fs₂).keys := by
  rw [mergeData, mergeData, AList.keys_insert, AList.keys_insert, h]

theorem keys_updateData (h : st₁.keys = st₂.keys) (p : List σ) (fs₁ fs₂ : List (κ × ν)) :
    (updateData st₁ p fs₁).keys = (updateData st₂ p fs₂).keys := by
  have hp := isSome_lookup_congr h p
  unfold updateData
  cases h₁ : st₁.lookup p <;> cases h₂ : st₂.lookup p
  · exact h
  · simp [h₁, h₂] at hp
  · simp [h₁, h₂] at hp
  · simp only [AList.keys_insert, h]

omit [DecidableEq κ] in
theorem query_eq [DecidableEq ν] (st : Store σ κ ν) (c : List σ) (k : κ) (v : ν) :
    query st c k v = st.keys.filterMap fun p =>
      if p ≠ [] ∧ p.dropLast = c ∧ (st.lookup p).bind (· k) = some v then some p else none := by
  rw [query, AList.keys, List.keys, List.filterMap_map]
  refine List.filterMap_congr fun e he => ?_
  rw [Function.comp_apply, AList.mem_lookup_iff.2 he, Option.bind_some]

omit [DecidableEq κ] in
/-- A query sees the order of the documents and the one field. -/
theorem query_congr [DecidableEq ν] (h : st₁.keys = st₂.keys) {c : List σ} {k : κ}
    (hk : ∀ p, p ≠ [] → p.dropLast = c → (st₁.lookup p).bind (· k) = (st₂.lookup p).bind (· k))
    (v : ν) : query st₁ c k v = query st₂ c k v := by
  rw [query_eq, query_eq, h]
  refine List.filterMap_congr fun p _ => ?_
  by_cases hp : p ≠ [] ∧ p.dropLast = c
  · rw [hk p hp.1 hp.2]
  · rw [if_neg fun h => hp ⟨h.1, h.2.1⟩, if_neg fun h => hp ⟨h.1, h.2.1⟩]

end

end DocStore
