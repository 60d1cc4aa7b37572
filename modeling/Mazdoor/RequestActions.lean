/-
  The request model with its surroundings.

  * `Requests.act`: taps begin at any time and advance, and the backend applies
    other writes, which go to profiles;
  * `Rooted`: under `Labor_Requests` is what was there and what the taps leave;
    `Rooted.act`: so it stays, whatever the outcomes are.
-/
import Mazdoor.Filing

namespace Mazdoor

open Transition

inductive RequestAction where
  /-- a tap begins -/
  | tap (t : Tap)
  | advance (j : ℕ) (o : Outcome)
  /-- the backend applies another write -/
  | profile (site : Site) (fields : Fields)

/-- The write of a profile. -/
def RequestAction.profileWrite : RequestAction → Option (Site × Fields)
  | .profile site fields => some (site, fields)
  | _ => none

def Requests.act (s : Requests) : RequestAction → Option Requests
  | .tap t => some ⟨s.shared, s.procs ++ [(t, .header)]⟩
  | .advance j o => s.step j o
  | .profile site fields =>
    if site.user.isSome ∧ site.accepted s.shared then some ⟨site.write s.shared fields, s.procs⟩
    else none

/-! ## What the taps leave -/

/-- The key that a stage goes on with is the labor's, and the user is the stored one. -/
def Stage.Of (t : Tap) : Stage → Prop
  | .profile key => key ∈ t.labor.key
  | .request key u _ => key ∈ t.labor.key ∧ u ∈ t.currentUserId
  | .header | .finished => True

/-- Under `Labor_Requests` is what was there, and what taps with `Q` leave. -/
structure Rooted (Q : Tap → Prop) (store : Store) (s : Requests) : Prop where
  procs : ∀ x ∈ s.procs, Q x.1 ∧ x.2.Of x.1
  docs : ∀ p d, s.shared.lookup (.name "Labor_Requests" :: p) = some d →
    store.lookup (.name "Labor_Requests" :: p) = some d ∨
      ∃ t, Q t ∧ t.Left (.name "Labor_Requests" :: p) d

section
variable {Q : Tap → Prop} {store st st' : Store} {s s' : Requests} {b : RequestAction} {t : Tap}
  {g g' : Stage} {o : Outcome} {p : Path} {d : Doc}

/-- A document that was not there is the one of this write. -/
theorem lookup_request_write {site : Site} {fs : Fields} (hu : site.user = none)
    (hd : (site.write st fs).lookup p = some d) :
    st.lookup p = some d ∨ p = site.path ∧ d = DocStore.merge DocStore.emptyDoc fs := by
  by_cases hp : p = site.path
  · refine Or.inr ⟨hp, ?_⟩
    cases site <;> simp only [Site.user, reduceCtorEq] at hu
    all_goals
      rw [Site.write, DocStore.lookup_setData, if_pos hp] at hd
      exact (Option.some.inj hd).symm
  · exact Or.inl (site.lookup_write_of_ne st fs hp ▸ hd)

theorem advance_left (hg : g.Of t) (h : t.advance st g o = some (st', g')) :
    g'.Of t ∧ ∀ p d, st'.lookup p = some d → st.lookup p = some d ∨ t.Left p d := by
  have same (p : Path) (d : Doc) (hd : st.lookup p = some d) :
      st.lookup p = some d ∨ t.Left p d := Or.inl hd
  cases g with
  | header =>
    cases hkey : t.labor.key with
    | none =>
      simp only [Tap.advance, hkey, Option.some.injEq, Prod.mk.injEq] at h
      obtain ⟨rfl, rfl⟩ := h
      exact ⟨trivial, same⟩
    | some key =>
      cases o with
      | failure =>
        simp only [Tap.advance, hkey, Option.some.injEq, Prod.mk.injEq] at h
        obtain ⟨rfl, rfl⟩ := h
        exact ⟨hkey, same⟩
      | success =>
        simp only [Tap.advance, hkey] at h
        split_ifs at h
        obtain ⟨rfl, rfl⟩ := Prod.mk.inj (Option.some.inj h)
        refine ⟨hkey, fun p d hd => (lookup_request_write rfl hd).imp_right ?_⟩
        exact fun hp => ⟨key, hkey, Or.inl hp⟩
  | profile key =>
    cases o with
    | failure =>
      obtain ⟨rfl, rfl⟩ := Prod.mk.inj (Option.some.inj h)
      exact ⟨trivial, same⟩
    | success =>
      simp only [Tap.advance] at h
      split at h
      · next u d hp =>
        obtain ⟨rfl, rfl⟩ := Prod.mk.inj (Option.some.inj h)
        exact ⟨⟨hg, (Tap.mem_profile hp).1⟩, same⟩
      · obtain ⟨rfl, rfl⟩ := Prod.mk.inj (Option.some.inj h)
        exact ⟨trivial, same⟩
  | request key u profile =>
    cases o with
    | failure =>
      obtain ⟨rfl, rfl⟩ := Prod.mk.inj (Option.some.inj h)
      exact ⟨trivial, same⟩
    | success =>
      simp only [Tap.advance] at h
      split_ifs at h
      obtain ⟨rfl, rfl⟩ := Prod.mk.inj (Option.some.inj h)
      refine ⟨trivial, fun p d hd => (lookup_request_write rfl hd).imp_right ?_⟩
      exact fun hp => ⟨key, hg.1, Or.inr ⟨u, hg.2, hp.1⟩⟩
  | finished => cases h

theorem Rooted.act (h : Rooted Q store s) (hb : ∀ t, b = .tap t → Q t)
    (hs : s.act b = some s') : Rooted Q store s' := by
  cases b with
  | tap t =>
    obtain rfl := Option.some.inj hs
    refine ⟨fun x hx => ?_, h.docs⟩
    rcases List.mem_append.1 hx with hx | hx
    · exact h.procs x hx
    · rw [List.mem_singleton.1 hx]
      exact ⟨hb t rfl, trivial⟩
  | advance j o =>
    obtain ⟨⟨t, g⟩, st, x, hj, ha, rfl⟩ := Interleave.step_cases hs
    obtain ⟨⟨st', g'⟩, hadv, hx⟩ := Option.map_eq_some_iff.1 ha
    obtain ⟨rfl, rfl⟩ := Prod.mk.inj hx
    obtain ⟨hQ, hg⟩ := h.procs _ (List.mem_of_getElem? hj)
    obtain ⟨hg', hleft⟩ := advance_left hg hadv
    refine ⟨fun x hx => ?_, fun p d hd => ?_⟩
    · rcases List.mem_or_eq_of_mem_set hx with hx | rfl
      · exact h.procs x hx
      · exact ⟨hQ, hg'⟩
    · rcases hleft _ d hd with hd | hd
      · exact h.docs p d hd
      · exact Or.inr ⟨t, hQ, hd⟩
  | profile site fields =>
    simp only [Requests.act] at hs
    split_ifs at hs with hc
    obtain rfl := Option.some.inj hs
    refine ⟨h.procs, fun p d hd => h.docs p d ?_⟩
    obtain ⟨id, hid⟩ := Option.isSome_iff_exists.1 hc.1
    have hp : .name "Labor_Requests" :: p ≠ site.path := by
      cases site <;> simp [Site.path, usersInfo, Site.user] at hid ⊢
    exact site.lookup_write_of_ne s.shared fields hp ▸ hd

end

end Mazdoor
