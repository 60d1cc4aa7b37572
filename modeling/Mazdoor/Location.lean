/-
  Where a stored location comes from.

  `UserLocation` and `CustomMap` write the same three globals, the first without
  an address; `userLocationStore` hands whatever they hold to Firestore and
  returns before the write is applied.

  * `HoldsLocation`: the profile holds the position and the geocoded address of
    one position event, put there by a write of the run;
  * `stored_without_address`: Continue and Proceed before `CustomMap` has a position;
  * `LocInv`: the globals, the writes on their way and the last applied write
    of each profile hold nothing, a position without an address (`"null"`), or
    one event's position with its address;
  * `AddressCond`: the last applied write of the profile has an address;
  * `LocCond`: it was issued when the geocoder's reply to `CustomMap` was the
    last to write the location globals;
  * `located_iff_locCond`: what a completed `userLocationStore`, or an applied
    location write, leaves in the profile is a location exactly under `LocCond`.
-/
import Mazdoor.Sources

namespace Mazdoor

open Transition

/-! ## Locations -/

/-- The keys of a stored location. -/
def locationKeys : List String := ["userAddress", "userLatitude", "userLongitude"]

/-- The globals that a location store writes. -/
def Globals.location (g : Globals) : Option String × Option ℚ × Option ℚ :=
  (g.userAddress, g.userLatitude, g.userLongitude)

/-- The globals hold one position event of the run with its geocoded address. -/
def Globals.FromEvent (log : List Event) (g : Globals) : Prop :=
  ∃ p first rest, .position p ∈ log ∧ .placemarks p (first :: rest) ∈ log ∧
    g.userAddress = some (presentAddress first) ∧ g.userLatitude = some p.latitude ∧
    g.userLongitude = some p.longitude

/-- The document has the location fields of these globals. -/
def HasLocation (d : Doc) (g : Globals) : Prop := ∀ f ∈ locationFields g, d f.1 = some f.2

/-- The profile holds a location of the run: neither null nor the text `"null"`,
    from one position event, by an applied write. -/
def HoldsLocation (s : App) (id : Seg) : Prop :=
  ∃ d, s.profile id = some d ∧
    (∀ k ∈ locationKeys, field d k ≠ .null ∧ field d k ≠ .str "null") ∧
    ∃ g : Globals, g.FromEvent s.log ∧ HasLocation d g ∧
      .committed (.location id) (locationFields g) ∈ s.log

/-- The address that a write puts into a document. -/
def addressOf (fields : Fields) : Val :=
  field (DocStore.merge DocStore.emptyDoc fields) "userAddress"

/-- The write has an address, and not the text of a null one. -/
def HasAddress (fields : Fields) : Prop := addressOf fields ≠ .null ∧ addressOf fields ≠ .str "null"

instance (fields : Fields) : Decidable (HasAddress fields) := inferInstanceAs (Decidable (_ ∧ _))

/-- The fields of a location write that the backend applies to `id`. -/
def Event.locationOf (id : Seg) : Event → Option Fields
  | .committed (.location i) fields => if i = id then some fields else none
  | _ => none

/-- The fields of the last such write. -/
def lastLocation (log : List Event) (id : Seg) : Option Fields :=
  (log.filterMap (Event.locationOf id)).getLast?

@[simp]
theorem addressOf_locationFields (g : Globals) :
    addressOf (locationFields g) = .ofString g.userAddress := by
  simp [addressOf, locationFields, DocStore.merge, field, Function.update]

theorem presentAddress_ne_null (p : Placemark) : presentAddress p ≠ "null" := by
  intro h
  have h := congrArg (',' ∈ ·.toList) h
  simp [presentAddress] at h

theorem Globals.FromEvent.mono {log log' : List Event} {g : Globals} (h : g.FromEvent log)
    (hl : log ⊆ log') : g.FromEvent log' := by
  obtain ⟨p, first, rest, hp, hps, hg⟩ := h
  exact ⟨p, first, rest, hl hp, hl hps, hg⟩

/-- A document with the fields of an event has nothing null in its location. -/
theorem HasLocation.field_ne {log : List Event} {d : Doc} {g : Globals} (hd : HasLocation d g)
    (h : g.FromEvent log) : ∀ k ∈ locationKeys, field d k ≠ .null ∧ field d k ≠ .str "null" := by
  obtain ⟨p, first, rest, -, -, ha, hla, hlo⟩ := h
  simp only [HasLocation, locationFields, List.forall_mem_cons, ha, hla, hlo, Val.ofString,
    Val.ofDouble] at hd
  obtain ⟨ha, hla, hlo, -⟩ := hd
  simp [locationKeys, field, ha, hla, hlo, presentAddress_ne_null]

/-! ## The last applied write -/

section
variable {log : List Event} {id : Seg}

theorem lastLocation_append {es : List Event} (h : ∀ e ∈ es, e.locationOf id = none) :
    lastLocation (log ++ es) id = lastLocation log id := by
  have : es.filterMap (Event.locationOf id) = [] := List.filterMap_eq_nil_iff.2 h
  rw [lastLocation, List.filterMap_append, this, List.append_nil]
  rfl

theorem locationOf_of_not_backend {e : Event} (h : e.isBackend = false) :
    e.locationOf id = none := by
  cases e <;> simp only [Event.isBackend, reduceCtorEq] at h <;> rfl

theorem lastLocation_append_commit {s : App} {w : Write} :
    lastLocation (log ++ .committed w.site w.fields :: s.creation w) id =
      if w.site = .location id then some w.fields else lastLocation log id := by
  rw [← List.singleton_append, ← List.append_assoc, lastLocation_append, lastLocation,
    List.filterMap_append]
  · cases hs : w.site <;> simp [Event.locationOf, lastLocation]
    split_ifs <;> simp
  · intro e he
    obtain ⟨_, -, -, rfl⟩ := App.mem_creation he
    rfl

theorem mem_lastLocation {fields : Fields} (h : fields ∈ lastLocation log id) :
    .committed (.location id) fields ∈ log := by
  obtain ⟨e, he, hf⟩ := List.mem_filterMap.1 (List.mem_of_getLast? h)
  unfold Event.locationOf at hf
  split at hf
  · split_ifs at hf with hi
    obtain rfl := Option.some.inj hf
    exact hi ▸ he
  · cases hf

theorem lastLocation_isSome {fields : Fields} (h : .committed (.location id) fields ∈ log) :
    (lastLocation log id).isSome := by
  rw [lastLocation, List.getLast?_isSome]
  exact List.ne_nil_of_mem (List.mem_filterMap.2 ⟨_, h, if_pos rfl⟩)

end

/-! ## The invariant -/

/-- What the location globals of a run can hold. -/
def Globals.Fix (log : List Event) (g : Globals) : Prop :=
  g.userAddress = none ∨ g.userAddress = some "null" ∨ g.FromEvent log

theorem Globals.Fix.mono {log log' : List Event} {g : Globals} (h : g.Fix log) (hl : log ⊆ log') :
    g.Fix log' :=
  h.imp id (Or.imp id (·.mono hl))

theorem Globals.Fix.fromEvent {log : List Event} {g : Globals} (h : g.Fix log)
    (ha : HasAddress (locationFields g)) : g.FromEvent log := by
  simp only [HasAddress, addressOf_locationFields] at ha
  rcases h with h | h | h
  · simp [h, Val.ofString] at ha
  · simp [h, Val.ofString] at ha
  · exact h

/-- The invariant: locations on their way and stored locations are what the
    globals of the run held. -/
structure LocInv (s : App) : Prop where
  global : s.global.Fix s.log
  tasks : ∀ k p, .geocode k p ∈ s.tasks → .position p ∈ s.log
  pending : ∀ w ∈ s.pending, ∀ id, w.site = .location id →
    ∃ g : Globals, g.Fix s.log ∧ w.fields = locationFields g
  stored : ∀ id, ∀ fields ∈ lastLocation s.log id, ∃ (g : Globals) (d : Doc), g.Fix s.log ∧
    fields = locationFields g ∧ s.profile id = some d ∧ HasLocation d g

/-- **Stored locations.**  A profile holds a location of the run exactly when
    the last write that was applied to it has an address. -/
theorem LocInv.holdsLocation_iff {s : App} (h : LocInv s) {id : Seg} :
    HoldsLocation s id ↔ ∃ fields ∈ lastLocation s.log id, HasAddress fields := by
  constructor
  · rintro ⟨d, hd, hk, g, -, -, hg⟩
    obtain ⟨fields, hf⟩ := Option.isSome_iff_exists.1 (lastLocation_isSome hg)
    obtain ⟨g', d', -, rfl, hd', hloc⟩ := h.stored id fields hf
    obtain rfl : d = d' := Option.some.inj (hd.symm.trans hd')
    refine ⟨_, hf, ?_⟩
    have ha := hk "userAddress" (by simp [locationKeys])
    rwa [field, hloc _ List.mem_cons_self] at ha
  · rintro ⟨fields, hf, ha⟩
    obtain ⟨g, d, hfix, rfl, hd, hloc⟩ := h.stored id fields hf
    have hg := hfix.fromEvent ha
    exact ⟨d, hd, hloc.field_ne hg, g, hg, hloc, mem_lastLocation hf⟩

theorem LocInv.launch (accounts : List Uid) (store : Store) : LocInv (App.launch accounts store) :=
  ⟨Or.inl rfl, by simp, by simp, by simp [lastLocation]⟩

section
variable {debug : Bool} {s s' : App} {a : Action}

theorem Globals.Fix.of_location {log : List Event} {g g' : Globals} (h : g.Fix log)
    (hg : g'.location = g.location) : g'.Fix log := by
  simp only [Globals.location, Prod.mk.injEq] at hg
  obtain ⟨ha, hla, hlo⟩ := hg
  simpa only [Globals.Fix, Globals.FromEvent, ha, hla, hlo] using h

/-- Only a geocoded position changes the location globals. -/
theorem App.Resumed.location {t : Task} {r : Reply} (h : App.Resumed debug s t r s')
    (ht : ∀ k p, t ≠ .geocode k p) : s'.global.location = s.global.location := by
  induction h with
  | idle => rfl
  | setState _ k _ hf ih =>
    rw [App.setState_global]
    split
    · rcases hf with ⟨k, p, hg⟩ | hf
      · exact absurd hg (ht k p)
      · obtain ⟨ha, hla, hlo⟩ := hf _
        rw [← ih, Globals.location, ha, hla, hlo, Globals.location]
    · exact ih
  | _ => assumption

theorem LocInv.geocoded {k : ℕ} {p : Position} {r : Reply} (h : s.global.Fix s.log)
    (hp : .position p ∈ s.log) (hr : App.resume debug s (.geocode k p) r = some s') :
    s'.global.Fix s'.log := by
  cases r <;> simp only [App.resume, Option.some.injEq, reduceCtorEq] at hr <;> subst hr
  case failed => exact h
  case placemarks ps =>
    have hlog : s.log ⊆ ((s.emit (.placemarks p ps)).setState debug k
        (CustomMap.onPlacemarks p ps)).log :=
      List.Subset.trans (List.subset_append_left _ _) (List.subset_append_left _ _)
    rw [App.setState_global]
    split_ifs
    · cases ps with
      | nil => exact h.mono hlog
      | cons first rest =>
        refine Or.inr (Or.inr ⟨p, first, rest, hlog hp, ?_, rfl, rfl, rfl⟩)
        simp
    · exact h.mono hlog

/-- Every step leaves the location globals alone, or sets them to a fix. -/
theorem LocInv.step_global (h : LocInv s) (hs : step debug s a = some s') :
    s'.global.Fix s'.log := by
  have hlog := App.step_log hs
  have same : s'.global = s.global → s'.global.Fix s'.log := fun hg => hg ▸ h.global.mono hlog
  cases App.step_stepped hs with
  | tap _ ht => exact same ht.global
  | relaunch => exact Or.inl rfl
  | located => exact Or.inr (Or.inl rfl)
  | dispose | geocode | commit | reject => exact same rfl
  | @resume i r t _ ht hr =>
    by_cases hg : ∃ k p, t = .geocode k p
    · obtain ⟨k, p, rfl⟩ := hg
      exact LocInv.geocoded (s := s.dequeue i) h.global (h.tasks k p (List.mem_of_getElem? ht)) hr
    · have hR := App.resume_resumed hr
      exact (h.global.mono hlog).of_location (hR.location fun k p hk => hg ⟨k, p, hk⟩)

/-- A geocoding request follows its position event. -/
theorem position_of_geocode (h : ∀ k p, .geocode k p ∈ s.tasks → .position p ∈ s.log)
    (hf : s.Formed) (hs : step debug s a = some s') {k : ℕ} {p : Position}
    (ht : .geocode k p ∈ s'.tasks) : .position p ∈ s'.log := by
  rcases App.step_tasks hs _ ht with ht | ht
  · exact App.step_log hs (h k p ht)
  cases ht with
  | spawned i r ha ht hsp =>
    unfold Task.Spawns at hsp
    split at hsp <;> simp at hsp
  | started ht =>
    obtain ⟨-, sc, ht⟩ := ht
    have := App.isInit_of_mem_initTasks ht
    cases this
  | done j ha hw ht =>
    have := (hf _ (List.mem_of_getElem? hw)).callbacks _ (Or.inl ht)
    cases this
  | error j ha hw ht =>
    have := (hf _ (List.mem_of_getElem? hw)).callbacks _ (Or.inr ht)
    cases this
  | tapped ha ht => cases a <;> exact ht.elim
  | geocode _ hp => exact hp

theorem LocInv.step_tasks (h : LocInv s) (hf : s.Formed) (hs : step debug s a = some s')
    {k : ℕ} {p : Position} (ht : .geocode k p ∈ s'.tasks) : .position p ∈ s'.log :=
  position_of_geocode h.tasks hf hs ht

theorem LocInv.step_pending (h : LocInv s) (hs : step debug s a = some s') :
    ∀ w ∈ s'.pending, ∀ id, w.site = .location id →
      ∃ g : Globals, g.Fix s'.log ∧ w.fields = locationFields g := by
  intro w hw u hu
  have hlog := App.step_log hs
  have old : ∀ w ∈ s.pending, w.site = .location u →
      ∃ g : Globals, g.Fix s'.log ∧ w.fields = locationFields g := fun w hw hu => by
    obtain ⟨g, hg, hfs⟩ := h.pending w hw u hu
    exact ⟨g, hg.mono hlog, hfs⟩
  rcases App.step_pending hs hw with ⟨i, -, t, -, hw⟩ | hw | ⟨w₀, hw₀, rfl⟩
  · cases t <;> simp only [Task.Issues] at hw
    case locationStore => subst hw; exact ⟨s.global, h.global.mono hlog, rfl⟩
    case addPhoneNumber => subst hw; cases hu
    case tap => obtain ⟨key, -, rfl⟩ := hw; cases hu
    case tapProfile => obtain ⟨v, -, d, -, rfl⟩ := hw; cases hu
    case picQuery => obtain ⟨p, -, rfl⟩ := hw; cases hu
  · exact old w hw hu
  · exact old w₀ hw₀ hu

/-- Writes of the other sites leave a stored location alone. -/
theorem HasLocation.merge {d : Doc} {g : Globals} {w : Write} (h : HasLocation d g)
    (hw : w.Formed) (hs : ∀ id, w.site ≠ .location id) :
    HasLocation (DocStore.merge d w.fields) g := by
  have hk : ∀ k ∈ locationKeys, k ∉ w.fields.map Prod.fst := by
    have hw := hw.fields
    unfold Write.FieldsOfSite at hw
    split at hw
    case h_2 id hid => exact absurd hid (hs id)
    all_goals
      obtain ⟨_, hw⟩ := hw
      simp [hw, locationKeys, registrationFields, pictureFields, laborRequestFields, fromUserFields]
  intro f hf
  have hf' : f.1 ∈ locationKeys := by
    simp only [locationFields, List.mem_cons, List.not_mem_nil, or_false] at hf
    rcases hf with rfl | rfl | rfl <;> simp [locationKeys]
  rw [DocStore.merge_of_notMem (hk _ hf'), h f hf]

/-- The fields of a location store are those of the merged document. -/
theorem hasLocation_merge (d : Doc) (g : Globals) :
    HasLocation (DocStore.merge d (locationFields g)) g := by
  simp [HasLocation, locationFields, DocStore.merge, Function.update]

theorem LocInv.step_stored (h : LocInv s) (hf : s.Formed) (hs : step debug s a = some s') :
    ∀ id, ∀ fields ∈ lastLocation s'.log id, ∃ (g : Globals) (d : Doc), g.Fix s'.log ∧
      fields = locationFields g ∧ s'.profile id = some d ∧ HasLocation d g := by
  intro u fields hu
  have hlog := App.step_log hs
  rcases App.step_cases hs with ⟨hst, es, hl, hes⟩ | ⟨j, rfl, w, hw, ha, rfl⟩
  · rw [hl, lastLocation_append fun e he => locationOf_of_not_backend (hes e he)] at hu
    obtain ⟨g, d, hg, hfs, hd, hloc⟩ := h.stored u fields hu
    exact ⟨g, d, hg.mono hlog, hfs, by rwa [App.profile, hst], hloc⟩
  have hw := List.mem_of_getElem? hw
  have hp : ((s.answer j).commit w).profile u = _ := Site.lookup_write w.site s.store w.fields u ha
  rw [App.commit_log, lastLocation_append_commit] at hu
  split_ifs at hu with hsite
  · obtain rfl := Option.some.inj hu
    obtain ⟨g, hg, hfs⟩ := h.pending w hw u hsite
    rw [if_pos (by rw [hsite]; rfl)] at hp
    exact ⟨g, _, hg.mono hlog, hfs, hp, hfs ▸ hasLocation_merge _ g⟩
  · obtain ⟨g, d, hg, hfs, hd, hloc⟩ := h.stored u fields hu
    split_ifs at hp with hsu
    · refine ⟨g, _, hg.mono hlog, hfs, hp, ?_⟩
      rw [show s.store.lookup (usersInfo u) = some d from hd]
      refine hloc.merge (hf w hw) fun id hid => hsite ?_
      rw [hid] at hsu ⊢
      obtain rfl := Option.some.inj hsu
      rfl
    · exact ⟨g, d, hg.mono hlog, hfs, hp.trans hd, hloc⟩

/-- **Every step keeps the invariant.** -/
theorem LocInv.step (h : LocInv s) (hf : s.Formed) (hs : Mazdoor.step debug s a = some s') :
    LocInv s' :=
  ⟨h.step_global hs, fun _ _ => h.step_tasks hf hs, h.step_pending hs, h.step_stored hf hs⟩

end

/-! ## The condition -/

/-- The profile whose location a step settles: a `userLocationStore` completes,
    or the backend applies a location write. -/
def Action.locates (s : App) : Action → Option Seg
  | .resume i .done =>
    match s.tasks[i]? with
    | some (.locationStore _ _ uid) => some (s.docId uid)
    | _ => none
  | .commit j =>
    match s.pending[j]? with
    | some ⟨.location id, _, _, _⟩ => some id
    | _ => none
  | _ => none

/-- After the step that profile holds a location of the run. -/
def Locates (debug : Bool) (s : App) (a : Action) : Prop :=
  ∀ s', step debug s a = some s' → ∀ id ∈ a.locates s, HoldsLocation s' id

/-- A `userLocationStore` completes where the last applied location write has an
    address, and only location writes with an address are applied. -/
def AddressCond (s : App) (a : Action) : Prop :=
  ∀ id ∈ a.locates s, match a with
    | .commit j => ∀ w ∈ s.pending[j]?, HasAddress w.fields
    | _ => ∃ fields ∈ lastLocation s.log id, HasAddress fields

/-- The sources of the last applied location write of a profile. -/
def Traces.lastLocation (x : Traces) (id : Seg) : Option Sources :=
  (x.applied.filterMap fun y => if y.1 = .location id then some y.2 else none).getLast?

/-- The location that is settled was written to the globals by `CustomMap`: by its
    handler of the geocoder's reply, and after the last event of `UserLocation`. -/
def LocCond (x : App × Traces) (a : Action) : Prop :=
  ∀ id ∈ a.locates x.1, match a with
    | .commit j => ∀ y ∈ x.2.answered x.1 j, y.2.location = some .customMap
    | _ => ∃ g ∈ x.2.lastLocation id, g.location = some .customMap

instance (x : App × Traces) (a : Action) : Decidable (LocCond x a) := by
  induction a using Action.casesOn <;> dsimp only [LocCond] <;> infer_instance

section
variable {debug : Bool} {s s' : App} {a : Action} {id : Seg}

theorem locates_resume {i : ℕ} {r : Reply} (h : id ∈ (Action.resume i r).locates s) :
    r = .done ∧ ∃ k who uid, s.tasks[i]? = some (.locationStore k who uid) ∧ id = s.docId uid := by
  cases r <;> simp only [Action.locates, Option.mem_def, reduceCtorEq] at h
  split at h
  · next k who uid ht => exact ⟨rfl, k, who, uid, ht, (Option.some.inj h).symm⟩
  · cases h

theorem locates_commit {j : ℕ} (h : id ∈ (Action.commit j).locates s) :
    ∃ w ∈ s.pending[j]?, w.site = .location id := by
  simp only [Action.locates] at h
  split at h
  · next i _ _ _ hw =>
    obtain rfl := Option.some.inj h
    exact ⟨_, hw, rfl⟩
  · cases h

/-- A step that settles a location is enabled, and then the profile's last
    applied write decides. -/
theorem exists_step_locates (h : id ∈ a.locates s) :
    ∃ s', step debug s a = some s' ∧
      ((∃ fields ∈ lastLocation s'.log id, HasAddress fields) ↔ AddressCond s a) := by
  have hone : ∀ id' ∈ a.locates s, id' = id := fun id' h' => Option.some.inj (h'.symm.trans h)
  cases a with
  | resume i r =>
    obtain ⟨rfl, k, who, uid, ht, rfl⟩ := locates_resume h
    refine ⟨_, by simp only [step, ht]; rfl, ?_⟩
    simp only [App.spawnAll_log, App.emit_log, App.issue_log, App.document_log, App.dequeue_log]
    rw [List.append_assoc, lastLocation_append (by simp [Event.locationOf])]
    exact ⟨fun hl id' h' => hone id' h' ▸ hl, fun hc => hc _ h⟩
  | commit j =>
    obtain ⟨w, hw, hsite⟩ := locates_commit h
    have hacc : w.site.accepted s.store := by rw [hsite]; rfl
    have hw' : s.pending[j]? = some w := hw
    refine ⟨_, by simp only [step, hw', if_pos hacc]; rfl, ?_⟩
    rw [App.commit_log, lastLocation_append_commit, if_pos hsite]
    constructor
    · rintro ⟨_, ⟨⟩, ha⟩ id' - w' hw''
      obtain rfl : w = w' := Option.some.inj (hw'.symm.trans hw'')
      exact ha
    · exact fun hc => ⟨_, rfl, hc id h w hw⟩
  | _ => cases h

theorem LocInv.locates_iff (h : LocInv s) (hf : s.Formed) :
    Locates debug s a ↔ AddressCond s a := by
  cases ho : a.locates s with
  | none => simp [Locates, AddressCond, ho]
  | some id =>
    obtain ⟨s', hs, hc⟩ := @exists_step_locates debug s a id ho
    rw [← hc, ← (h.step hf hs).holdsLocation_iff]
    constructor
    · exact fun hl => hl s' hs id ho
    · intro hl s'' hs' id' hid
      obtain rfl := Option.some.inj (hs.symm.trans hs')
      obtain rfl := Option.some.inj (ho.symm.trans hid)
      exact hl

/-! ### Addresses and listeners -/

variable {x : Traces}

/-- Only `CustomMap` writes an address. -/
theorem hasAddress_iff {fields : Fields} {g : Sources}
    (h : FieldsFrom (.location id) fields g) :
    HasAddress fields ↔ g.location = some .customMap := by
  obtain ⟨gl, hg, rfl⟩ := h
  have ha := hg.address
  simp only [HasAddress, addressOf_locationFields]
  cases hl : g.location with
  | none => simp only [hl] at ha; simp [ha, Val.ofString]
  | some l =>
    cases l with
    | userLocation => simp only [hl] at ha; simp [ha, Val.ofString]
    | customMap =>
      simp only [hl] at ha
      obtain ⟨p, ha⟩ := ha
      simp [ha, Val.ofString, presentAddress_ne_null]

theorem lastLocation_eq (log : List Event) (id : Seg) : lastLocation log id =
    ((log.filterMap Event.commits).filterMap fun c =>
      if c.1 = .location id then some c.2 else none).getLast? := by
  rw [List.filterMap_filterMap, lastLocation]
  congr 2
  funext e
  cases e with
  | committed site fields => cases site <;> simp [Event.locationOf, Event.commits]
  | _ => rfl

/-- The last applied write has an address if `CustomMap` wrote the globals. -/
theorem Sourced.lastLocation_iff (h : Sourced s x) (id : Seg) :
    (∃ fields ∈ lastLocation s.log id, HasAddress fields) ↔
      ∃ g ∈ x.lastLocation id, g.location = some .customMap := by
  have hR : Option.Rel (fun fields g => FieldsFrom (.location id) fields g)
      (lastLocation s.log id) (x.lastLocation id) := by
    rw [lastLocation_eq]
    refine forall₂_getLast? (List.rel_filterMap ?_ h.applied)
    rintro ⟨site, fields⟩ ⟨site', g⟩ ⟨rfl, hf⟩
    by_cases hs : site = .location id
    · subst hs
      simpa using hf
    · simp [hs]
  cases hl : lastLocation s.log id <;> cases hx : x.lastLocation id <;> rw [hl, hx] at hR <;>
    cases hR
  · simp
  · next hf => simpa using hasAddress_iff hf

theorem Sourced.addressCond_iff (h : Sourced s x) : AddressCond s a ↔ LocCond (s, x) a := by
  refine forall₂_congr fun id hid => ?_
  cases a with
  | commit j =>
    obtain ⟨w, hw, hsite⟩ := locates_commit hid
    obtain ⟨g, hg, hf⟩ := h.answered hw
    rw [hsite] at hf
    have hw' : s.pending[j]? = some w := hw
    simp only [hw', hg, Option.mem_def, Option.some.injEq, forall_eq']
    exact hasAddress_iff hf
  | _ => exact h.lastLocation_iff id

end

/-- **Locations of one event.**  In every run, what a completed
    `userLocationStore` or an applied location write leaves in the profile is the
    position and the address of one position event exactly when the step meets
    `LocCond`. -/
theorem located_iff_locCond {debug : Bool} {accounts : List Uid} {store : Store}
    {acts : List Action} :
    (Along (step debug) (Locates debug) (App.launch accounts store) acts ↔
      Along (traced debug) LocCond (App.launch accounts store, {}) acts) ∧
    ∀ s, run (step debug) (App.launch accounts store) acts = some s →
      ∀ a, Locates debug s a ↔
        LocCond (s, Traces.after debug (App.launch accounts store) acts) a := by
  let I (x : App × Traces) : Prop := (LocInv x.1 ∧ x.1.Formed) ∧ Sourced x.1 x.2
  have hstep : ∀ x a y, I x → traced debug x a = some y → I y := by
    rintro x a y ⟨⟨hl, hf⟩, hx⟩ hs
    obtain ⟨hs, hy⟩ := withGhost_eq_some.1 hs
    exact ⟨⟨hl.step hf hs, hf.step hs⟩, hy ▸ hx.step hs⟩
  have hiff : ∀ x a, I x → (Locates debug x.1 a ↔ LocCond x a) := fun x a h =>
    (h.1.1.locates_iff h.1.2).trans h.2.addressCond_iff
  have h₀ : I (App.launch accounts store, {}) :=
    ⟨⟨.launch _ _, App.formed_launch _ _⟩, .launch _ _⟩
  constructor
  · rw [← along_congr hstep hiff h₀]
    exact (along_withGhost (C := Locates debug) (γ := Traces)
      (x := (App.launch accounts store, {}))).symm
  · intro s hr a
    have hI : I (s, _) := run_invariant' hstep h₀ (run_withGhost hr)
    exact hiff _ a hI

/-! ## Runs with and without an address -/

/-- A Facebook registration up to `UserLocation`, with a position event there
    (the screen has the key 3), a stored location, and the map. -/
def positionOnUserLocation : List Action :=
  [.resume 0 .done, .facebookSignIn, .resume 0 .done, .resume 0 (.credential "A"), .resume 0 .done,
    .pickProfileImage, .resume 0 .done, .continueProfile, .resume 0 (.form "Ahmad" "03001234567"),
    .resume 0 (.url "u"), .resume 0 .done, .commit 0, .resume 0 .done,
    .position 3 ⟨31, 74⟩, .continueLocation, .resume 1 .done, .resume 1 .done, .resume 1 .done,
    .commit 0, .resume 1 .done, .openMap]

/-- Proceed, up to the completion of `userLocationStore`. -/
def proceedOnMap : List Action := [.proceed, .resume 1 .done, .resume 1 .done]

/-- **The claimed location fails**: the call completes, all writes are applied,
    and the profile's address is the text of a null one. -/
theorem stored_without_address :
    ∃ s s', run (step false) (App.launch [] ∅) (positionOnUserLocation ++ proceedOnMap) = some s ∧
      s.pending = [] ∧ step false s (.resume 1 .done) = some s' ∧
      (s.profile (.name "A")).map (field · "userAddress") = some (.str "null") ∧
      ¬ Locates false s (.resume 1 .done) := by
  refine ⟨_, _, rfl, by decide, rfl, by decide, fun h => ?_⟩
  obtain ⟨d, hd, hk, -⟩ := h _ rfl (.name "A") rfl
  refine (hk "userAddress" (by simp [locationKeys])).2 ?_
  have hd := congrArg (Option.map (field · "userAddress")) hd
  exact Option.some.inj (hd.symm.trans (by decide))

/-- On the map (its key is 6) a position is geocoded, stored and applied. -/
def positionOnMap : List Action :=
  [.showCustomMap, .position 6 ⟨32, 75⟩,
    .resume 1 (.placemarks [⟨some "7", some "Lahore", some "54000"⟩]),
    .proceed, .resume 1 .done, .resume 1 .done, .resume 1 .done, .commit 0]

theorem positionOnMap_located :
    ∃ s, run (step false) (App.launch [] ∅)
        (positionOnUserLocation ++ positionOnMap ++ proceedOnMap) = some s ∧
      (Action.resume 1 .done).locates s = some (.name "A") ∧ Locates false s (.resume 1 .done) :=
  ⟨_, rfl, by decide, ((@located_iff_locCond false [] ∅
    (positionOnUserLocation ++ positionOnMap ++ proceedOnMap)).2 _ rfl _).2 (by decide)⟩

end Mazdoor
