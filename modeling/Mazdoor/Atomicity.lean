/-
  One request tap as a transaction (`initsMarker` of
  `lib/Screens/custom_map.dart`).

  The three steps of a tap are not one write: `whenComplete` goes on after a
  failed header, nothing takes the header back when the rest fails, and the
  profile's fields are copied as they are.

  * `AllOrNothing`: both documents are there and complete, or
    `Labor_Requests` is as before, and no request follows a failed header;
  * `header_left_behind`: the client has no profile;
  * `tap_cases`: what a tap does, by the outcomes of its steps;
  * `allOrNothing_iff_atomic`: a tap is all-or-nothing if and only if its
    header failed and no request was written, or all its steps succeeded from a
    profile with a name and a number, up to what earlier taps have left.
-/
import Mazdoor.Requests

namespace Mazdoor

open Transition

/-! ## All or nothing -/

/-- A tap takes a step, with an outcome of the backend. -/
def Tap.step (t : Tap) (x : Store × Stage) (o : Outcome) : Option (Store × Stage) :=
  t.advance x.1 x.2 o

/-- The document has a user's name and phone number under these keys. -/
def HasContact (userName userPhone : String) (d : Doc) : Prop :=
  field d userName ≠ .null ∧ field d userPhone ≠ .null

/-- The header with the labor's id and the user's request, with name and number, are there. -/
def Tap.Filed (t : Tap) (st : Store) : Prop :=
  ∃ key ∈ t.labor.key,
    (∃ d ∈ st.lookup (laborRequests key), d "laborId" = some (.str t.labor.requestId)) ∧
    ∃ u ∈ t.currentUserId, ∃ d ∈ st.lookup (fromUser key (.name u)),
      HasContact "userName" "userPhone" d

/-- All documents under `Labor_Requests` are as before. -/
def RequestsUnchanged (st st' : Store) : Prop :=
  ∀ p, st'.lookup (.name "Labor_Requests" :: p) = st.lookup (.name "Labor_Requests" :: p)

/-- The header failed, and yet the request was written. -/
def WrittenAfterFailure (os : List Outcome) : Prop := os = [.failure, .success, .success]

/-- What a tap that ran to its end with these outcomes may leave. -/
def AllOrNothing (t : Tap) (st : Store) (os : List Outcome) (st' : Store) : Prop :=
  (t.Filed st' ∨ RequestsUnchanged st st') ∧ ¬ WrittenAfterFailure os

/-! ## A header without a request -/

/-- **The claimed atomicity fails**: the client has no profile, and the header stays. -/
theorem header_left_behind :
    ∃ t : Tap, ∃ st', run t.step (∅, .header) [.success, .success] = some (st', .finished) ∧
      ¬ AllOrNothing t ∅ [.success, .success] st' := by
  refine ⟨⟨⟨"1", some "Mason", none, none, none, none⟩, some "A"⟩, _, rfl, ?_⟩
  rintro ⟨⟨key, hkey, -, u, hu, d, hd, -⟩ | h, -⟩
  · obtain rfl := Option.some.inj hkey
    obtain rfl := Option.some.inj hu
    cases hd
  · cases h (segments "Mason1")

/-! ## The condition -/

/-- The header is in the store as this tap writes it. -/
def Tap.HeaderLeft (t : Tap) (st : Store) (key : String) : Prop :=
  st.lookup (laborRequests key) =
    some (DocStore.merge DocStore.emptyDoc (laborRequestFields t.labor))

/-- The request is in the store as a tap writes it from a user's profile. -/
def RequestLeft (st : Store) (key : String) (x : Uid × Doc) : Prop :=
  st.lookup (fromUser key (.name x.1)) =
    some (DocStore.merge DocStore.emptyDoc (fromUserFields x.2))

/-- The condition on the stored key and its profile, on what earlier taps have
    left, and on the outcomes. -/
def Tap.Atomic (t : Tap) (st : Store) (os : List Outcome) : Prop :=
  ∀ key ∈ t.labor.key,
    match os with
    | [] => True
    | .failure :: os => os ≠ [.success, .success]
    | .success :: os =>
      (os = [.success, .success] → ∀ x ∈ t.profile st,
        HasContact "userName" "userPhoneNumber" x.2 ∨
          t.HeaderLeft st key ∧ RequestLeft st key x) ∧
      (os ≠ [.success, .success] → t.HeaderLeft st key ∨
        ∃ u ∈ t.currentUserId, ∃ d ∈ st.lookup (fromUser key (.name u)),
          HasContact "userName" "userPhone" d)

/-! ## A run of a tap -/

section
variable {t : Tap} {st st₁ st' : Store} {os : List Outcome} {key : String}

/-- The store after the header's step. -/
def Tap.afterHeader (t : Tap) (st : Store) (key : String) : Outcome → Store
  | .success => (Site.laborRequest key).write st (laborRequestFields t.labor)
  | .failure => st

theorem lookup_usersInfo_afterHeader (o : Outcome) (id : Seg) :
    (t.afterHeader st key o).lookup (usersInfo id) = st.lookup (usersInfo id) := by
  cases o with
  | success => exact (Site.lookup_write _ _ _ _ rfl).trans (if_neg nofun)
  | failure => rfl

theorem profile_afterHeader (o : Outcome) :
    t.profile (t.afterHeader st key o) = t.profile st := by
  simp only [Tap.profile, lookup_usersInfo_afterHeader]

theorem run_finished (h : run t.step (st, .finished) os = some (st', .finished)) :
    os = [] ∧ st' = st := by
  cases os with
  | nil =>
    cases h
    exact ⟨rfl, rfl⟩
  | cons o os => cases h

/-- From the read of the profile on. -/
theorem run_profile (h : run t.step (st, .profile key) os = some (st', .finished)) :
    (os = [.success, .success] ∧ ∃ x ∈ t.profile st,
      st' = (Site.fromUser key (.name x.1)).write st (fromUserFields x.2)) ∨
    os ≠ [.success, .success] ∧ st' = st := by
  cases os with
  | nil => cases h
  | cons o os =>
    obtain ⟨x, hx, h⟩ := run_cons.1 h
    cases o with
    | failure =>
      cases hx
      exact .inr ⟨by simp, (run_finished h).2⟩
    | success =>
      cases hd : t.profile st with
      | none =>
        simp only [Tap.step, Tap.advance, hd, Option.some.injEq] at hx
        subst hx
        obtain ⟨rfl, rfl⟩ := run_finished h
        exact .inr ⟨by simp, rfl⟩
      | some y =>
        simp only [Tap.step, Tap.advance, hd, Option.some.injEq] at hx
        subst hx
        cases os with
        | nil => cases h
        | cons o os =>
          obtain ⟨x, hx, h⟩ := run_cons.1 h
          cases o with
          | failure =>
            cases hx
            exact .inr ⟨by simp, (run_finished h).2⟩
          | success =>
            simp only [Tap.step, Tap.advance] at hx
            split_ifs at hx
            cases hx
            obtain ⟨rfl, rfl⟩ := run_finished h
            exact .inl ⟨rfl, y, rfl, rfl⟩

/-- **What a tap does.**  Without a key it ends at once; otherwise the header's
    outcome decides about the header, and the request is written when both other
    steps succeed. -/
theorem tap_cases (h : run t.step (st, .header) os = some (st', .finished)) :
    (t.labor.key = none ∧ st' = st ∧ os.length = 1) ∨
    ∃ key ∈ t.labor.key, ∃ o os', os = o :: os' ∧
      ((os' = [.success, .success] ∧ ∃ x ∈ t.profile st,
        st' = (Site.fromUser key (.name x.1)).write (t.afterHeader st key o)
          (fromUserFields x.2)) ∨
      os' ≠ [.success, .success] ∧ st' = t.afterHeader st key o) := by
  cases os with
  | nil => cases h
  | cons o os =>
    obtain ⟨x, hx, h⟩ := run_cons.1 h
    cases hk : t.labor.key with
    | none =>
      have hx' : x = (st, .finished) := by
        cases o <;> simpa [Tap.step, Tap.advance, hk, eq_comm] using hx
      subst hx'
      obtain ⟨rfl, rfl⟩ := run_finished h
      exact .inl ⟨rfl, rfl, rfl⟩
    | some key =>
      have hx' : x = (t.afterHeader st key o, .profile key) := by
        cases o with
        | failure => simpa [Tap.step, Tap.advance, hk, Tap.afterHeader, eq_comm] using hx
        | success =>
          simp only [Tap.step, Tap.advance, hk] at hx
          split_ifs at hx
          cases hx
          rfl
      subst hx'
      refine .inr ⟨key, rfl, o, os, rfl, ?_⟩
      rcases run_profile h with ⟨rfl, y, hy, rfl⟩ | h
      · exact .inl ⟨rfl, y, profile_afterHeader o ▸ hy, rfl⟩
      · exact .inr h

/-! ## What the documents are afterwards -/

/-- Writes to the header and to the request, and what they leave alone. -/
theorem lookup_laborRequest_write (fs : Fields) (p : Path) :
    ((Site.laborRequest key).write st fs).lookup p =
      if p = laborRequests key then some (DocStore.merge DocStore.emptyDoc fs) else st.lookup p :=
  DocStore.lookup_setData _ _ _ _

theorem lookup_fromUser_write (id : Seg) (fs : Fields) (p : Path) :
    ((Site.fromUser key id).write st fs).lookup p =
      if p = fromUser key id then some (DocStore.merge DocStore.emptyDoc fs) else st.lookup p :=
  DocStore.lookup_setData _ _ _ _

theorem laborId_laborRequestFields (l : Labor) (d : Doc) :
    DocStore.merge d (laborRequestFields l) "laborId" = some (.str l.requestId) := by
  simp [DocStore.merge, laborRequestFields, Function.update]

/-- A request has a name and a number exactly if the profile has. -/
theorem hasContact_fromUserFields (profile : Doc) :
    HasContact "userName" "userPhone" (DocStore.merge DocStore.emptyDoc (fromUserFields profile)) ↔
      HasContact "userName" "userPhoneNumber" profile := by
  simp [HasContact, field, DocStore.merge, fromUserFields, Function.update]

theorem filed_iff (hk : key ∈ t.labor.key) :
    t.Filed st ↔
      (∃ d ∈ st.lookup (laborRequests key), d "laborId" = some (.str t.labor.requestId)) ∧
      ∃ u ∈ t.currentUserId, ∃ d ∈ st.lookup (fromUser key (.name u)),
        HasContact "userName" "userPhone" d := by
  constructor
  · rintro ⟨key', hk', h⟩
    obtain rfl : key = key' := Option.some.inj (hk.symm.trans hk')
    exact h
  · exact fun h => ⟨key, hk, h⟩

/-- A header that was written alone. -/
theorem afterHeader_allOrNothing (hk : key ∈ t.labor.key) :
    (t.Filed (t.afterHeader st key .success) ∨
        RequestsUnchanged st (t.afterHeader st key .success)) ↔
      t.HeaderLeft st key ∨
        ∃ u ∈ t.currentUserId, ∃ d ∈ st.lookup (fromUser key (.name u)),
          HasContact "userName" "userPhone" d := by
  rw [filed_iff hk, or_comm]
  refine or_congr ?_ ?_
  · constructor
    · intro h
      exact (h (segments key)).symm.trans ((lookup_laborRequest_write _ _).trans (if_pos rfl))
    · intro h p
      rw [Tap.afterHeader, lookup_laborRequest_write]
      split_ifs with hp
      · rw [hp]
        exact h.symm
      · rfl
  · have hne := fun u => (laborRequests_ne_fromUser key (.name u)).symm
    simp only [Tap.afterHeader, lookup_laborRequest_write, if_neg (hne _)]
    exact and_iff_right ⟨_, rfl, laborId_laborRequestFields _ _⟩

/-- A header and a request from a user's profile. -/
theorem bothWritten_allOrNothing (hk : key ∈ t.labor.key) {x : Uid × Doc} (hx : x ∈ t.profile st)
    (hst : st' = (Site.fromUser key (.name x.1)).write (t.afterHeader st key .success)
      (fromUserFields x.2)) :
    (t.Filed st' ∨ RequestsUnchanged st st') ↔
      HasContact "userName" "userPhoneNumber" x.2 ∨ t.HeaderLeft st key ∧ RequestLeft st key x := by
  obtain ⟨u, d⟩ := x
  have hu : u ∈ t.currentUserId := (Tap.mem_profile hx).1
  have hne := laborRequests_ne_fromUser key (.name u)
  have hlookup : ∀ p, st'.lookup p =
      if p = fromUser key (.name u) then
        some (DocStore.merge DocStore.emptyDoc (fromUserFields d))
      else if p = laborRequests key then
        some (DocStore.merge DocStore.emptyDoc (laborRequestFields t.labor))
      else st.lookup p := by
    intro p
    rw [hst, lookup_fromUser_write, Tap.afterHeader, lookup_laborRequest_write]
  have hheader := (hlookup (laborRequests key)).trans ((if_neg hne).trans (if_pos rfl))
  have hrequest := (hlookup (fromUser key (.name u))).trans (if_pos rfl)
  rw [filed_iff hk, hheader]
  refine or_congr ?_ ?_
  · constructor
    · rintro ⟨-, u', hu', d', hd', h⟩
      obtain rfl : u' = u := Option.some.inj (hu'.symm.trans hu)
      obtain rfl := Option.some.inj (hd'.symm.trans hrequest)
      exact (hasContact_fromUserFields d).1 h
    · intro h
      exact ⟨⟨_, rfl, laborId_laborRequestFields _ _⟩, u, hu, _, hrequest,
        (hasContact_fromUserFields d).2 h⟩
  · constructor
    · intro h
      exact ⟨(h _).symm.trans hheader, (h _).symm.trans hrequest⟩
    · rintro ⟨hh, hr⟩ p
      rw [hlookup]
      split_ifs with hp hp
      · rw [hp]
        exact hr.symm
      · rw [hp]
        exact hh.symm
      · rfl

/-- **A tap as a transaction.**  A tap that has run to its end is all-or-nothing
    if and only if the condition holds. -/
theorem allOrNothing_iff_atomic (h : run t.step (st, .header) os = some (st', .finished)) :
    AllOrNothing t st os st' ↔ t.Atomic st os := by
  rcases tap_cases h with ⟨hk, rfl, hl⟩ | ⟨key, hk, o, os, rfl, hos⟩
  · refine iff_of_true ⟨.inr fun p => rfl, fun h => ?_⟩ ?_
    · rw [show os = _ from h] at hl
      cases hl
    · intro key hkey
      exact absurd (hk.symm.trans hkey) nofun
  · have hatomic : t.Atomic st (o :: os) ↔ _ :=
      ⟨fun h => h key hk, fun h key' hk' => Option.some.inj (hk.symm.trans hk') ▸ h⟩
    rw [hatomic]
    cases o with
    | failure =>
      rcases hos with ⟨rfl, x, -, -⟩ | ⟨hne, rfl⟩
      · exact iff_of_false (fun h => h.2 rfl) (fun h => h rfl)
      · refine iff_of_true ⟨.inr fun p => rfl, fun h => hne ?_⟩ hne
        exact (List.cons.inj h).2
    | success =>
      have hw : ¬ WrittenAfterFailure (.success :: os) := nofun
      rw [AllOrNothing, and_iff_left hw]
      rcases hos with ⟨rfl, x, hx, hst⟩ | ⟨hne, rfl⟩
      · rw [bothWritten_allOrNothing hk hx hst]
        constructor
        · refine fun h => ⟨fun _ x' hx' => ?_, fun hne => absurd rfl hne⟩
          rwa [← Option.some.inj (hx.symm.trans hx')]
        · exact fun h => h.1 rfl x hx
      · rw [afterHeader_allOrNothing hk]
        exact ⟨fun h => ⟨fun he => absurd he hne, fun _ => h⟩, fun h => h.2 hne⟩

end

/-- A tap on an empty mailbox, by a user with a name and a number. -/
theorem completeTap_allOrNothing :
    ∃ t : Tap, ∃ st st', run t.step (st, .header) [.success, .success, .success] =
        some (st', .finished) ∧ AllOrNothing t st [.success, .success, .success] st' := by
  refine ⟨⟨⟨"1", some "Mason", none, none, none, none⟩, some "A"⟩,
    DocStore.setData ∅ (usersInfo (.name "A"))
      [("userName", .str "Ahmad"), ("userPhoneNumber", .str "03001234567")], _, rfl,
    (allOrNothing_iff_atomic rfl).2 fun key hkey => ?_⟩
  refine ⟨fun _ x hx => .inl ?_, fun hne => absurd rfl hne⟩
  obtain rfl := Option.some.inj hx
  simp [HasContact, field, DocStore.merge, Function.update]

end Mazdoor
