/-
  The position listener of the map (`_getlocation` of
  `lib/Screens/custom_map.dart`).

  Every position event starts a handler that awaits the geocoder and then
  assigns the fields one by one.  Handlers overlap, their replies come in any
  order, and `placemark[0]` throws on an empty list when some of the fields are
  already assigned.

  * `MapFields`, `CustomMap.onReply`: the fields, and the rest of a handler
    after its await;
  * `MapListener.Holds s n`: all fields describe the `n`-th event, or nothing
    if `n` is `0`; `Refines`: they do so after every reply, never go back, and
    end with the latest event;
  * `older_event_last`: two replies in the other order;
  * `refines_of_inOrder`: a mounted map whose replies come in order, and are not
    empty, is an atomic register that moves forward.
-/
import Mazdoor.Lib.Register
import Mazdoor.Screens

namespace Mazdoor

open Transition Register

/-! ## The listener -/

/-- The fields that the listener assigns: those of the `State`, the static
    `initialPosition`, and the globals. -/
structure MapFields (L : Type) where
  positions : Option Position := none
  placemark : Option (List Placemark) := none
  presentAddress : Option String := none
  initialPosition : Option L := none
  global : Globals := {}
  deriving DecidableEq

/-- What the handler of an event is up to. -/
inductive PositionHandler where
  | waiting
  | answered (ps : List Placemark)
  | failed
  deriving DecidableEq

def PositionHandler.isAnswered : PositionHandler → Bool
  | .answered _ => true
  | _ => false

/-- The listener of a mounted map, with the position events in the order of their delivery. -/
structure MapListener (L : Type) where
  fields : MapFields L
  events : List (Position × PositionHandler)

inductive ListenerAction where
  | position (p : Position)
  /-- the geocoder answers the handler of event `n` -/
  | placemarks (n : ℕ) (ps : List Placemark)
  | geocodingFailed (n : ℕ)
  deriving DecidableEq

def ListenerAction.IsReply : ListenerAction → Prop
  | .position _ => False
  | .placemarks _ _ | .geocodingFailed _ => True

section
-- the constructor `LatLng` of the map library, on numbers
variable {L : Type} (latLng : ℚ → ℚ → L)

/-- `_getlocation`, from the reply of the geocoder on. -/
def CustomMap.onReply (p : Position) (ps : List Placemark) (m : MapFields L) : MapFields L :=
  let m := { m with
    placemark := some ps
    positions := some p
    initialPosition := some (latLng p.latitude p.longitude) }
  match ps with
  -- `placemark[0]` throws
  | [] => m
  | first :: _ =>
    { m with
      presentAddress := some (presentAddress first)
      global := CustomMap.onPlacemarks p ps m.global }

namespace MapListener

/-- A map that is created when the static field and the globals are these. -/
def start (initialPosition : Option L) (global : Globals) : MapListener L :=
  ⟨{ initialPosition, global }, []⟩

def step (s : MapListener L) : ListenerAction → Option (MapListener L)
  | .position p => some { s with events := s.events ++ [(p, .waiting)] }
  | .placemarks n ps =>
    match s.events[n]? with
    | some (p, .waiting) =>
      some ⟨CustomMap.onReply latLng p ps s.fields, s.events.set n (p, .answered ps)⟩
    | _ => none
  -- the handler ends at its await
  | .geocodingFailed n =>
    match s.events[n]? with
    | some (p, .waiting) => some { s with events := s.events.set n (p, .failed) }
    | _ => none

/-! ## An atomic register -/

/-- All fields are still unset. -/
def Unset (s : MapListener L) : Prop :=
  s.fields.positions = none ∧ s.fields.initialPosition = none ∧ s.fields.presentAddress = none ∧
    s.fields.global.userAddress = none ∧ s.fields.global.userLatitude = none ∧
    s.fields.global.userLongitude = none

/-- All fields describe one event, with the address from a reply for it. -/
def Describes (s : MapListener L) (n : ℕ) : Prop :=
  ∃ p first rest, s.events[n]? = some (p, .answered (first :: rest)) ∧
    s.fields.positions = some p ∧
    s.fields.initialPosition = some (latLng p.latitude p.longitude) ∧
    s.fields.presentAddress = some (presentAddress first) ∧
    s.fields.global.userAddress = some (presentAddress first) ∧
    s.fields.global.userLatitude = some p.latitude ∧
    s.fields.global.userLongitude = some p.longitude

/-- The register after the `n`-th event. -/
def Holds (s : MapListener L) : ℕ → Prop
  | 0 => s.Unset
  | n + 1 => s.Describes latLng n

/-- The run follows a register that moves forward, and ends with the latest
    event once all replies have arrived without an error. -/
structure Refines (s : MapListener L) (as : List ListenerAction) : Prop where
  follows : Follows (step latLng) ListenerAction.IsReply (Holds latLng) 0 s as
  latest : ∀ t, run (step latLng) s as = some t → (∀ e ∈ t.events, e.2.isAnswered) →
    t.events ≠ [] → t.Holds latLng t.events.length

end MapListener

end

/-! ## Replies in the other order -/

/-- Two events, the second of which is answered first. -/
def overtaken : List ListenerAction :=
  [.position ⟨1, 1⟩, .position ⟨2, 2⟩, .placemarks 1 [⟨some "b", none, none⟩],
    .placemarks 0 [⟨some "a", none, none⟩]]

/-- **The claimed register fails**: the map ends with the first event. -/
theorem older_event_last : ¬ (MapListener.start none {}).Refines Prod.mk overtaken := by
  intro h
  obtain ⟨p, first, rest, he, hp, -⟩ := h.latest _ rfl (by decide) (by decide)
  cases he
  exact absurd hp (by decide)

/-! ## The condition -/

namespace MapListener

/-- Replies come in the order of their events and are not empty, and no error
    comes first if others have set the static field or the globals. -/
def InOrder {L : Type} (s : MapListener L) : ListenerAction → Prop
  | .position _ => True
  | .placemarks n ps => ps ≠ [] ∧ ∀ e ∈ s.events.drop (n + 1), e.2.isAnswered = false
  | .geocodingFailed _ => s.Unset ∨ ∃ e ∈ s.events, e.2.isAnswered

instance {L : Type} [DecidableEq L] (s : MapListener L) : Decidable s.Unset :=
  inferInstanceAs (Decidable (_ ∧ _))

instance {L : Type} [DecidableEq L] (s : MapListener L) (a : ListenerAction) :
    Decidable (s.InOrder a) := by
  induction a using ListenerAction.casesOn <;> dsimp only [InOrder] <;> infer_instance

theorem forall_mem_drop {α : Type*} {l : List α} {n : ℕ} {P : α → Prop} :
    (∀ x ∈ l.drop n, P x) ↔ ∀ m x, n ≤ m → l[m]? = some x → P x := by
  constructor
  · intro h m x hm hx
    refine h x (List.mem_iff_getElem?.2 ⟨m - n, ?_⟩)
    rw [List.getElem?_drop, Nat.add_sub_cancel' hm, hx]
  · intro h x hx
    obtain ⟨m, hm⟩ := List.mem_iff_getElem?.1 hx
    rw [List.getElem?_drop] at hm
    exact h (n + m) x (Nat.le_add_right n m) hm

/-- **The invariant**: the register is at the last event that was answered. -/
structure RegisterInv {L : Type} (latLng : ℚ → ℚ → L) (r : ℕ) (s : MapListener L) : Prop where
  holds : 0 < r → s.Holds latLng r
  later : ∀ m e, r ≤ m → s.events[m]? = some e → e.2.isAnswered = false

section
variable {L : Type} {latLng : ℚ → ℚ → L} {s s' : MapListener L} {r n : ℕ}

theorem RegisterInv.start (initialPosition : Option L) (global : Globals) :
    RegisterInv latLng 0 (start initialPosition global) :=
  ⟨fun h => absurd h (lt_irrefl 0), fun m e _ h => by simp [MapListener.start] at h⟩

/-- The register keeps its event when the fields stay and answers are not taken back. -/
theorem Holds.mono (h : s.Holds latLng r) (hr : 0 < r) (hf : s'.fields = s.fields)
    (he : ∀ (m : ℕ) (p : Position) (ps : List Placemark), s.events[m]? = some (p, .answered ps) →
      s'.events[m]? = some (p, .answered ps)) : s'.Holds latLng r := by
  cases r with
  | zero => exact absurd hr (lt_irrefl 0)
  | succ n =>
    obtain ⟨p, first, rest, hn, h⟩ := h
    exact ⟨p, first, rest, he n p _ hn, hf ▸ h⟩

/-- The event of the register has been answered. -/
theorem RegisterInv.answered (h : RegisterInv latLng (n + 1) s) :
    ∃ p ps, s.events[n]? = some (p, .answered ps) := by
  obtain ⟨p, first, rest, hn, -⟩ := h.holds (Nat.succ_pos n)
  exact ⟨p, _, hn⟩

/-- A new event leaves the register alone. -/
theorem RegisterInv.position (h : RegisterInv latLng r s) (p : Position) :
    RegisterInv latLng r { s with events := s.events ++ [(p, .waiting)] } := by
  constructor
  · intro hr
    refine Holds.mono (h.holds hr) hr rfl fun m q ps hm => ?_
    exact (List.getElem?_append_left (List.getElem?_eq_some_iff.1 hm).1).trans hm
  · intro m e hm he
    rw [List.getElem?_append] at he
    split_ifs at he with hlt
    · exact h.later m e hm he
    · rw [List.getElem?_singleton] at he
      split_ifs at he
      exact Option.some.inj he ▸ rfl

/-- An error leaves the register alone. -/
theorem RegisterInv.failed {p : Position} (h : RegisterInv latLng r s)
    (hn : s.events[n]? = some (p, .waiting)) :
    RegisterInv latLng r { s with events := s.events.set n (p, .failed) } := by
  have hlt := (List.getElem?_eq_some_iff.1 hn).1
  constructor
  · intro hr
    refine Holds.mono (h.holds hr) hr rfl fun m q ps hm => ?_
    have hne : n ≠ m := by
      rintro rfl
      cases hn.symm.trans hm
    exact (List.getElem?_set_ne hne).trans hm
  · intro m e hm he
    by_cases hnm : n = m
    · rw [← hnm, List.getElem?_set_self hlt] at he
      exact Option.some.inj he ▸ rfl
    · rw [List.getElem?_set_ne hnm] at he
      exact h.later m e hm he

/-- A reply that is not empty moves the register to its event. -/
theorem RegisterInv.placemarks {p : Position} (h : RegisterInv latLng r s)
    (first : Placemark) (rest : List Placemark) (hn : s.events[n]? = some (p, .waiting))
    (hlater : ∀ m e, n + 1 ≤ m → s.events[m]? = some e → e.2.isAnswered = false) :
    r ≤ n + 1 ∧ RegisterInv latLng (n + 1)
      ⟨CustomMap.onReply latLng p (first :: rest) s.fields,
        s.events.set n (p, .answered (first :: rest))⟩ := by
  have hlt := (List.getElem?_eq_some_iff.1 hn).1
  constructor
  · -- the event of the register has been answered, so it is not a later one
    by_contra hr
    obtain ⟨k, rfl⟩ := Nat.exists_eq_add_of_lt (not_le.1 hr)
    obtain ⟨q, ps, hk⟩ := h.answered
    have := hlater (n + 1 + k) _ (Nat.le_add_right _ _) hk
    cases this
  · constructor
    · intro _
      exact ⟨p, first, rest, List.getElem?_set_self hlt, rfl, rfl, rfl, rfl, rfl, rfl⟩
    · intro m e hm he
      rw [List.getElem?_set_ne (by omega)] at he
      exact hlater m e hm he

/-- **Steps.**  A step in order keeps the register, or moves it forward. -/
theorem RegisterInv.step {a : ListenerAction} (h : RegisterInv latLng r s) (hc : s.InOrder a)
    (hs : step latLng s a = some s') :
    ∃ r', r ≤ r' ∧ (a.IsReply → s'.Holds latLng r') ∧ RegisterInv latLng r' s' := by
  cases a with
  | position p =>
    obtain rfl := Option.some.inj hs
    exact ⟨r, le_rfl, fun ha => absurd ha id, h.position p⟩
  | placemarks n ps =>
    obtain ⟨hne, hlater⟩ := hc
    simp only [MapListener.step] at hs
    split at hs
    · rename_i p hn
      obtain rfl := Option.some.inj hs
      cases ps with
      | nil => exact absurd rfl hne
      | cons first rest =>
        obtain ⟨hr, h'⟩ := h.placemarks first rest hn (forall_mem_drop.1 hlater)
        exact ⟨n + 1, hr, fun _ => h'.holds (Nat.succ_pos n), h'⟩
    · cases hs
  | geocodingFailed n =>
    simp only [MapListener.step] at hs
    split at hs
    · rename_i p hn
      obtain rfl := Option.some.inj hs
      have h' := h.failed hn
      refine ⟨r, le_rfl, fun _ => ?_, h'⟩
      rcases Nat.eq_zero_or_pos r with rfl | hr
      · -- nothing was answered, so the fields are unset
        rcases hc with hu | ⟨e, he, ha⟩
        · exact hu
        · obtain ⟨m, hm⟩ := List.mem_iff_getElem?.1 he
          rw [h.later m e (Nat.zero_le m) hm] at ha
          cases ha
      · exact h'.holds hr
    · cases hs

/-- **The map's position.**  A listener whose replies come in order refines an
    atomic register that moves forward. -/
theorem refines_of_inOrder (latLng : ℚ → ℚ → L) (initialPosition : Option L) (global : Globals)
    {as : List ListenerAction}
    (hc : Along (step latLng) InOrder (start initialPosition global) as) :
    (start initialPosition global).Refines latLng as := by
  have h₀ : RegisterInv latLng 0 (start initialPosition global) := .start initialPosition global
  refine ⟨follows (fun r s a s' h hc hs => h.step hc hs) h₀ hc, fun t ht hall hne => ?_⟩
  obtain ⟨r, h⟩ : ∃ r, RegisterInv latLng r t := by
    refine run_invariant (I := fun s => ∃ r, RegisterInv latLng r s) ?_ ⟨0, h₀⟩ hc ht
    rintro s a s' ⟨r, h⟩ hc hs
    obtain ⟨r', -, -, h'⟩ := h.step hc hs
    exact ⟨r', h'⟩
  -- the register is at the last event: the one after it would have been answered
  have hle : t.events.length ≤ r := by
    by_contra hlt
    have he := List.getElem?_eq_getElem (not_le.1 hlt)
    have := h.later r _ le_rfl he
    rw [hall _ (List.mem_of_getElem? he)] at this
    cases this
  have hge : r ≤ t.events.length := by
    cases r with
    | zero => exact Nat.zero_le _
    | succ n =>
      obtain ⟨p, ps, hn⟩ := h.answered
      exact (List.getElem?_eq_some_iff.1 hn).1
  rw [le_antisymm hle hge]
  refine h.holds (lt_of_lt_of_le (List.length_pos_iff.2 hne) hle)

end

/-- Two events, an error and a reply. -/
def answeredInOrder : List ListenerAction :=
  [.position ⟨1, 1⟩, .position ⟨2, 2⟩, .geocodingFailed 0, .position ⟨3, 3⟩,
    .placemarks 1 [⟨some "b", none, none⟩], .placemarks 2 [⟨some "c", none, none⟩]]

theorem answeredInOrder_refines : (start none {}).Refines Prod.mk answeredInOrder :=
  refines_of_inOrder Prod.mk none {} (by decide)

end MapListener

end Mazdoor
