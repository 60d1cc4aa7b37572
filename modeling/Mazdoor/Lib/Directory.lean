/-
  Directories whose entries are written by one client each.

  An entry has parts, each of them a register; the client that writes an entry
  first owns it.

  * `step`: a client writes a part of an entry that is free or its own;
  * `owner_of_put`: after a run every write in it was one of the entry's owner;
  * `Entry.doc`: an entry read as a document, when the parts are sets of fields;
    `Entry.Apart.put_left`, `Entry.Apart.put_right`: a write to a part is a merge
    into the document.
-/
import Mazdoor.Lib.Run
import Mazdoor.Lib.Merges

namespace Directory

open Transition

/-- An entry: its owner and what was last written to each part. -/
structure Entry (ι φ ν : Type) where
  owner : ι
  part : φ → Option ν

/-- A client writes a part of an entry. -/
structure Put (ι κ φ ν : Type) where
  client : ι
  key : κ
  part : φ
  value : ν

variable {ι κ φ ν : Type} [DecidableEq ι] [DecidableEq κ] [DecidableEq φ]

def Entry.free (i : ι) : Entry ι φ ν := ⟨i, fun _ => none⟩

def Entry.put (e : Entry ι φ ν) (f : φ) (v : ν) : Entry ι φ ν :=
  { e with part := Function.update e.part f (some v) }

/-- The entry that a client finds at a key, or makes there. -/
def entryFor (d : κ → Option (Entry ι φ ν)) (p : Put ι κ φ ν) : Entry ι φ ν :=
  (d p.key).getD (Entry.free p.client)

/-- A client writes to an entry that is free or its own. -/
def step (d : κ → Option (Entry ι φ ν)) (p : Put ι κ φ ν) : Option (κ → Option (Entry ι φ ν)) :=
  if (entryFor d p).owner = p.client then
    some (Function.update d p.key (some ((entryFor d p).put p.part p.value)))
  else none

/-- **Owners.**  Whoever writes an entry in a run owns it in the end. -/
theorem owner_of_put {d d' : κ → Option (Entry ι φ ν)} {ps : List (Put ι κ φ ν)}
    (hr : run step d ps = some d') : ∀ p ∈ ps, ∃ e ∈ d' p.key, e.owner = p.client := by
  induction ps using List.reverseRecOn generalizing d' with
  | nil => simp
  | append_singleton ps q ih =>
    obtain ⟨d₁, hr₁, hx⟩ := run_append.1 hr
    obtain ⟨d₂, hq, hd⟩ := run_cons.1 hx
    obtain rfl := Option.some.inj hd
    unfold step at hq
    split_ifs at hq with ho
    obtain rfl := Option.some.inj hq
    intro p hp
    by_cases hk : p.key = q.key
    · refine ⟨(entryFor d₁ q).put q.part q.value, by rw [hk]; exact Function.update_self .., ?_⟩
      rcases List.mem_append.1 hp with hp | hp
      · obtain ⟨e, he, heo⟩ := ih hr₁ p hp
        have he : entryFor d₁ q = e := by rw [entryFor, ← hk, he, Option.getD_some]
        exact (congrArg Entry.owner he).trans heo
      · rw [List.mem_singleton.1 hp]
        exact ho
    · obtain hp := (List.mem_append.1 hp).resolve_right fun hp =>
        hk (congrArg Put.key (List.mem_singleton.1 hp))
      obtain ⟨e, he, heo⟩ := ih hr₁ p hp
      exact ⟨e, by rwa [Function.update_of_ne hk], heo⟩

/-! ## Documents -/

section
variable {κ' ν' : Type} [DecidableEq κ']

open DocStore

/-- The document of an entry with the parts `f` and `g`. -/
def Entry.doc (f g : φ) (e : Entry ι φ (List (κ' × ν'))) : Doc κ' ν' :=
  merge (merge emptyDoc ((e.part f).getD [])) ((e.part g).getD [])

/-- The parts of an entry keep to their own fields. -/
structure Entry.Apart (f g : φ) (ks ls : List κ') (e : Entry ι φ (List (κ' × ν'))) : Prop where
  left : keys ((e.part f).getD []) ⊆ ks
  right : keys ((e.part g).getD []) ⊆ ls

variable {f g : φ} {ks ls : List κ'} {e : Entry ι φ (List (κ' × ν'))} {v : List (κ' × ν')}

omit [DecidableEq ι] in
theorem Entry.Apart.put_left (h : e.Apart f g ks ls) (hfg : f ≠ g) (hv : keys v = ks)
    (hd : ks.Disjoint ls) :
    (e.put f v).Apart f g ks ls ∧ (e.put f v).doc f g = merge (e.doc f g) v := by
  have hf : (e.put f v).part f = some v := Function.update_self ..
  have hg : (e.put f v).part g = e.part g := Function.update_of_ne hfg.symm ..
  have hdl : (keys ((e.part g).getD [])).Disjoint (keys v) := fun k hk hk' =>
    hd (hv ▸ hk') (h.right hk)
  have hsub : keys ((e.part f).getD []) ⊆ keys v := fun k hk => hv ▸ h.left hk
  refine ⟨⟨?_, ?_⟩, ?_⟩
  · rw [hf, Option.getD_some, hv]
    exact List.Subset.refl _
  · rw [hg]
    exact h.right
  · rw [Entry.doc, hf, hg, Option.getD_some, Entry.doc, merge_comm hdl,
      merge_merge_of_subset hsub]

omit [DecidableEq ι] in
theorem Entry.Apart.put_right (h : e.Apart f g ks ls) (hfg : f ≠ g) (hv : keys v = ls) :
    (e.put g v).Apart f g ks ls ∧ (e.put g v).doc f g = merge (e.doc f g) v := by
  have hf : (e.put g v).part f = e.part f := Function.update_of_ne hfg ..
  have hg : (e.put g v).part g = some v := Function.update_self ..
  have hsub : keys ((e.part g).getD []) ⊆ keys v := fun k hk => hv ▸ h.right hk
  refine ⟨⟨?_, ?_⟩, ?_⟩
  · rw [hf]
    exact h.left
  · rw [hg, Option.getD_some, hv]
    exact List.Subset.refl _
  · rw [Entry.doc, hf, hg, Option.getD_some, Entry.doc, merge_merge_of_subset hsub]

omit [DecidableEq ι] [DecidableEq φ] [DecidableEq κ'] in
theorem apart_free (i : ι) : (Entry.free i : Entry ι φ (List (κ' × ν'))).Apart f g ks ls :=
  ⟨List.nil_subset _, List.nil_subset _⟩

end

end Directory
