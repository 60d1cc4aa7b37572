/-
  Any number of devices on one backend.

  The accounts of Firebase, the documents of Firestore and its generated ids
  are shared by all devices that run the app; everything else of `App` is the
  device's own.

  * `device` is the app as a machine on the shared backend, a `Fleet` a net of
    them; `Fleet.launch` is the first start of the app on every device, whenever
    a device takes its first step;
  * `step_accounts`, `step_nextAuto`: accounts and ids are not taken back;
  * `Fleet.committed`: the writes that the backend has applied, in order.
-/
import Mazdoor.Lib.Shared
import Mazdoor.Frame

namespace Mazdoor

/-- What all devices share. -/
structure Backend where
  accounts : List Uid
  store : Store
  nextAuto : ℕ

namespace App

/-- The backend as the app on one device sees it. -/
@[simps]
def backend (s : App) : Backend := ⟨s.accounts, s.store, s.nextAuto⟩

/-- The app on a backend that other devices have changed. -/
@[simps]
def on (b : Backend) (s : App) : App :=
  { s with accounts := b.accounts, store := b.store, nextAuto := b.nextAuto }

/-- A step only adds to the log. -/
theorem step_log_prefix {debug : Bool} {s s' : App} {a : Action} (h : step debug s a = some s') :
    s.log <+: s'.log := by
  rcases step_cases h with ⟨-, es, hl, -⟩ | ⟨j, -, w, -, -, rfl⟩
  · exact ⟨es, hl.symm⟩
  · exact ⟨_, rfl⟩

end App

/-- The app as a machine on a shared backend. -/
def device (debug : Bool) : Shared.Machine Backend App Action Event where
  get := App.backend
  put := App.on
  get_put _ _ := rfl
  put_get _ := rfl
  put_put _ _ _ := rfl
  next := step debug
  log := App.log
  log_put _ _ := rfl
  log_next := App.step_log_prefix

/-- The devices that run the app. -/
abbrev Fleet (ι : Type) : Type := Shared.Net ι Backend App Event

namespace Fleet

variable {ι : Type}

/-- The first start of the app on every device. -/
def launch (accounts : List Uid) (store : Store) : Fleet ι where
  shared := ⟨accounts, store, 0⟩
  machine _ := App.launch accounts store
  history := []

variable [DecidableEq ι]

/-- One device takes a step. -/
def step (debug : Bool) : Fleet ι → ι × Action → Option (Fleet ι) := Shared.step (device debug)

/-- The app on device `i`. -/
def app (n : Fleet ι) (i : ι) : App := (n.machine i).on n.shared

end Fleet

/-! ## What the backend keeps -/

namespace App

section
variable {debug : Bool} {s s' : App} {t : Task} {r : Reply} {a : Action}

theorem Resumed.accounts (h : Resumed debug s t r s') : s.accounts ⊆ s'.accounts := by
  induction h with
  | idle => exact List.Subset.refl _
  | authenticate _ _ _ ih => exact List.subset_cons_of_subset _ ih
  | _ => assumption

theorem Resumed.nextAuto (h : Resumed debug s t r s') : s.nextAuto ≤ s'.nextAuto := by
  induction h with
  | idle => exact le_rfl
  | document _ id ih =>
    refine ih.trans ?_
    rw [document_nextAuto]
    split <;> omega
  | _ => assumption

theorem Tap.backend (h : Tap s a s') : s'.backend = s.backend := by
  cases h <;> rfl

/-- An account stays. -/
theorem step_accounts (h : step debug s a = some s') : s.accounts ⊆ s'.accounts := by
  cases step_stepped h with
  | tap _ ht => exact ht.accounts ▸ List.Subset.refl _
  | resume _ hr => exact (resume_resumed hr).accounts
  | _ => exact List.Subset.refl _

/-- Firebase has an account more once it accepts a credential. -/
theorem mem_accounts_of_resume {u : Uid} (h : resume debug s t r = some s')
    (hu : u ∈ s'.accounts) : u ∈ s.accounts ∨ r = .credential u := by
  cases hsi : t.signsIn with
  | false => exact Or.inl (((resume_resumed h).session hsi).2.1 ▸ hu)
  | true =>
    cases t with
    | signInCredential k | facebookCredential k =>
      cases r <;> simp only [resume, Option.some.injEq, reduceCtorEq] at h <;> subst h
      · exact Or.inl hu
      · exact (List.mem_cons.1 hu).symm.imp id fun h => by rw [h]
    | signIn k uid isNewUser | facebook k uid isNewUser =>
      have hs : s'.accounts = s.accounts := by
        cases isNewUser <;> cases r <;>
          simp only [resume, Option.some.injEq, reduceCtorEq] at h <;> subst h
        all_goals first
          | rfl
          | (unfold withContext; split <;> rfl)
          | (split <;> rfl)
      exact Or.inl (hs ▸ hu)
    | _ => cases hsi

/-- An account is new only where its credential is accepted. -/
theorem mem_accounts_step {u : Uid} (h : step debug s a = some s') (hu : u ∈ s'.accounts) :
    u ∈ s.accounts ∨ ∃ i, a = .resume i (.credential u) := by
  cases step_stepped h with
  | tap _ ht => exact Or.inl (ht.accounts ▸ hu)
  | @resume i _ _ _ _ hr => exact (mem_accounts_of_resume hr hu).imp id fun h => ⟨i, by rw [h]⟩
  | _ => exact Or.inl hu

/-- A generated id is not generated again. -/
theorem step_nextAuto (h : step debug s a = some s') : s.nextAuto ≤ s'.nextAuto := by
  by_cases ha : a.isTap
  · exact (congrArg Backend.nextAuto (tap_of_step ha h).backend).ge
  cases step_stepped h with
  | tap hb => exact absurd hb ha
  | resume _ hr => exact (resume_resumed hr).nextAuto
  | _ => exact le_rfl

end
end App

/-! ## Applied writes -/

/-- The writes that the backend has applied, of all devices, in order. -/
def Fleet.committed {ι : Type} (n : Fleet ι) : List (Site × Fields) :=
  n.history.filterMap (·.2.commits)

end Mazdoor
