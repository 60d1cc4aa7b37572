/-
  The account's data on the device.

  The name and the phone number, the uid and the preferences are written in two
  places: by the form that the validators accept, and by the branch of a
  first-time account.  `resume_account` says so of every continuation.
-/
import Mazdoor.Frame

namespace Mazdoor

/-- The uid that a task stores, or writes under. -/
def Task.carries : Task → Option Uid
  | .signIn _ uid true | .facebook _ uid true => some uid
  | .locationStore _ _ uid | .tapHeader _ _ uid | .tapProfile _ _ uid => uid
  | _ => none

/-- The name, the phone number and the uid of the globals, and the preferences. -/
def App.account (s : App) : Option String × Option String × Option Uid × Prefs :=
  (s.global.userName, s.global.userPhoneNumber, s.global.userId, s.prefs)

/-- What a continuation makes of the account's data. -/
inductive AccountStep (s : App) (t : Task) (s' : App) : Prop
  | keep (h : s'.account = s.account)
  | form (name phone : String) (hv : validate name phone)
    (h : s'.account = (some name, some phone, s.global.userId,
      { s.prefs with userName := some name }))
  | signIn (uid : Uid) (ht : t.carries = some uid)
    (h : s'.account = (s.global.userName, s.global.userPhoneNumber, some uid,
      { s.prefs with currentUserId := some uid }))

section
variable {debug : Bool} {s s' : App} {t : Task} {r : Reply} {k : ℕ}

@[simp]
theorem account_spawn (s : App) (t : Task) : (s.spawn t).account = s.account := rfl

@[simp]
theorem account_display (s : App) (k : ℕ) (e : Event) : (s.display k e).account = s.account := rfl

/-- A closure that leaves the account alone. -/
theorem account_setState {f : Globals → Globals}
    (hf : ∀ g, (f g).userName = g.userName ∧ (f g).userPhoneNumber = g.userPhoneNumber ∧
      (f g).userId = g.userId) (s : App) (k : ℕ) :
    (s.setState debug k f).account = s.account := by
  obtain ⟨hn, hp, hu⟩ := hf s.global
  rw [App.account, App.setState_global, App.setState_prefs]
  split
  · rw [hn, hp, hu, App.account]
  · rfl

theorem account_withContext {f : App → App} (hf : ∀ s, (f s).account = s.account) :
    (s.withContext k f).account = s.account := by
  rcases App.withContext_cases s k f with ⟨-, hw⟩ | hw <;> rw [hw]
  exact hf s

/-- **The account's data** is set by an accepted form and by a first sign-in. -/
theorem resume_account (h : App.resume debug s t r = some s') : AccountStep s t s' := by
  unfold App.resume at h
  split at h <;> simp only [Option.some.injEq, reduceCtorEq] at h <;> subst h
  case h_12 k uid =>
    split
    · exact .signIn uid rfl rfl
    · exact .keep rfl
  case h_16 k uid =>
    exact .signIn uid rfl (account_withContext fun _ => rfl)
  case h_20 k name phone =>
    split
    · next hv => exact .form name phone hv.2 rfl
    · exact .keep rfl
  all_goals refine .keep ?_
  case h_21 k who u =>
    have hu : (s.setState debug k ({ · with userImage := some u })).account = s.account :=
      account_setState (by exact fun g => ⟨rfl, rfl, rfl⟩) s k
    split <;> simpa using hu
  case h_29 p ps =>
    refine account_setState (fun g => ?_) _ _
    cases ps <;> exact ⟨rfl, rfl, rfl⟩
  case h_35 k who u =>
    have hu : ((s.spawn (.picUser u who)).setState debug k
        ({ · with userImage := some u })).account = s.account :=
      account_setState (by exact fun g => ⟨rfl, rfl, rfl⟩) (s.spawn (.picUser u who)) k
    simpa using hu
  all_goals first
    | rfl
    | exact account_withContext fun _ => rfl
    | (refine account_setState ?_ _ _; exact fun g => ⟨rfl, rfl, rfl⟩)
    | (split <;> rfl)

end
end Mazdoor
