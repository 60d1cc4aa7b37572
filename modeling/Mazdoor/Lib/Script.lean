/-
  Scripts over global variables.

  A script runs on an environment of variables that outlives it.  An assignment
  declares its variable; reading a variable that was never assigned raises a
  reference error, and the effects before an error stay.

  * `assign`, `read`, `call`: the statements, with a lemma each for `exec`;
  * `invoke` is one invocation, `serve` a warm process that handles events one
    after the other in one environment;
  * `serve_eq_map_iff`: a specification of the single invocation, under an
    invariant of the environment, carries over to every history of events.
-/
import Mathlib.Logic.Function.Basic

namespace Script

variable {ν υ κ ε α β : Type} [DecidableEq ν]

/-- The variables that are declared, and the calls made so far. -/
structure State (ν υ κ : Type) where
  globals : ν → Option υ
  calls : List κ

/-- The errors that end a script: reading an undeclared variable, or a value of
    the wrong type. -/
inductive Error (ν : Type) where
  | referenceError (x : ν)
  | typeError

abbrev Code (ν υ κ α : Type) : Type := ExceptT (Error ν) (StateM (State ν υ κ)) α

/-- `x = v` -/
def assign (x : ν) (v : υ) : Code ν υ κ Unit :=
  modify fun s => { s with globals := Function.update s.globals x (some v) }

def read (x : ν) : Code ν υ κ υ := do
  match (← get).globals x with
  | some v => return v
  | none => throw (.referenceError x)

/-- A call to the outside. -/
def call (c : κ) : Code ν υ κ Unit := modify fun s => { s with calls := s.calls ++ [c] }

/-- The result of a script, and the state that it leaves. -/
def exec (p : Code ν υ κ α) (s : State ν υ κ) : Except (Error ν) α × State ν υ κ := p.run.run s

section
variable {p : Code ν υ κ α} {f : α → Code ν υ κ β} {s s' : State ν υ κ} {g : ν → Option υ}
  {cs : List κ}

omit [DecidableEq ν] in
theorem exec_bind_ok {a : α} (h : exec p s = (.ok a, s')) : exec (p >>= f) s = exec (f a) s' := by
  unfold exec at h ⊢
  rw [ExceptT.run_bind, StateT.run_bind, h]
  rfl

omit [DecidableEq ν] in
theorem exec_bind_error {e : Error ν} (h : exec p s = (.error e, s')) :
    exec (p >>= f) s = (.error e, s') := by
  unfold exec at h ⊢
  rw [ExceptT.run_bind, StateT.run_bind, h]
  rfl

theorem exec_assign (x : ν) (v : υ) :
    exec (assign x v) ⟨g, cs⟩ = (.ok (), ⟨Function.update g x (some v), cs⟩) := rfl

omit [DecidableEq ν] in
theorem exec_read {x : ν} {v : υ} (h : g x = some v) :
    exec (read x) ⟨g, cs⟩ = (.ok v, ⟨g, cs⟩) := by
  change exec (match g x with
    | some v => return v
    | none => throw (.referenceError x)) ⟨g, cs⟩ = _
  rw [h]
  rfl

omit [DecidableEq ν] in
/-- Reading an undeclared variable is an error. -/
theorem exec_read_error {x : ν} (h : g x = none) :
    exec (read x) ⟨g, cs⟩ = (.error (.referenceError x), ⟨g, cs⟩) := by
  change exec (match g x with
    | some v => return v
    | none => throw (.referenceError x)) ⟨g, cs⟩ = _
  rw [h]
  rfl

omit [DecidableEq ν] in
theorem exec_call (c : κ) : exec (call c) ⟨g, cs⟩ = (.ok (), ⟨g, cs ++ [c]⟩) := rfl

end

/-! ## Warm processes -/

/-- One invocation: the environment that it leaves, and its calls. -/
def invoke (p : Code ν υ κ Unit) (g : ν → Option υ) : (ν → Option υ) × List κ :=
  let s := (exec p ⟨g, []⟩).2
  (s.globals, s.calls)

/-- The calls of every invocation of a process, one list for each event. -/
def serve (handle : ε → Code ν υ κ Unit) (g : ν → Option υ) : List ε → List (List κ)
  | [] => []
  | e :: es => (invoke (handle e) g).2 :: serve handle (invoke (handle e) g).1 es

omit [DecidableEq ν] in
/-- **Histories.**  If an invariant of the environment is kept, and under it an
    invocation makes the calls `f e` exactly for events with `P`, then a whole
    history makes them exactly when all of its events have `P`. -/
theorem serve_eq_map_iff {handle : ε → Code ν υ κ Unit} {f : ε → List κ} {P : ε → Prop}
    {I : (ν → Option υ) → Prop} (hI : ∀ g e, I g → I (invoke (handle e) g).1)
    (hf : ∀ g e, I g → ((invoke (handle e) g).2 = f e ↔ P e)) {g : ν → Option υ} (hg : I g)
    (es : List ε) : serve handle g es = es.map f ↔ ∀ e ∈ es, P e := by
  induction es generalizing g with
  | nil => simp [serve]
  | cons e es ih =>
    rw [serve, List.map_cons, List.cons.injEq, hf g e hg, ih (hI g e hg), List.forall_mem_cons]

end Script
