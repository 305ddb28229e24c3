import Mathlib.Data.List.Induction

/-!
# Runs of a state machine whose steps are guarded

A run folds a step function over a list of actions.  A guard says of an action
whether it may be taken in a state; a run is along the guard when each of its
actions meets it where it is taken.  An invariant that guarded steps keep holds
at the end of such a run and at every place of it.
-/

namespace GoRetroTv

namespace Runs

variable {State Action : Type*}

/-- Each action of a run meets the guard in the state it is taken in. -/
def Along (step : State → Action → State) (guard : State → Action → Prop) :
    State → List Action → Prop
  | _, [] => True
  | s, action :: actions => guard s action ∧ Along step guard (step s action) actions

variable {step : State → Action → State} {guard : State → Action → Prop} {s : State}

instance Along.decidable [∀ s action, Decidable (guard s action)] :
    (s : State) → (actions : List Action) → Decidable (Along step guard s actions)
  | _, [] => inferInstanceAs (Decidable True)
  | s, action :: actions =>
      have := Along.decidable (step s action) actions
      inferInstanceAs (Decidable (guard s action ∧ Along step guard (step s action) actions))

theorem along_append {done later : List Action} :
    Along step guard s (done ++ later) ↔
      Along step guard s done ∧ Along step guard (done.foldl step s) later := by
  induction done generalizing s with
  | nil => simp [Along]
  | cons action done ih => simp [Along, ih, and_assoc]

/-- The guard at a place of the run. -/
theorem Along.place {done later : List Action} {action : Action}
    (along : Along step guard s (done ++ action :: later)) :
    guard (done.foldl step s) action :=
  (along_append.mp along).2.1

/-- The run up to a place of it. -/
theorem Along.upTo {done later : List Action} (along : Along step guard s (done ++ later)) :
    Along step guard s done :=
  (along_append.mp along).1

/-- What guarded steps keep holds at the end of the run. -/
theorem Along.invariant {holds : State → Prop} {actions : List Action}
    (along : Along step guard s actions) (start : holds s)
    (keeps : ∀ s action, holds s → guard s action → holds (step s action)) :
    holds (actions.foldl step s) := by
  induction actions generalizing s with
  | nil => exact start
  | cons action actions ih => exact ih along.2 (keeps s action start along.1)

/-- Two guards that say the same wherever an invariant of the guarded steps holds. -/
theorem along_congr {other : State → Action → Prop} {holds : State → Prop} {actions : List Action}
    (start : holds s) (same : ∀ s action, holds s → (guard s action ↔ other s action))
    (keeps : ∀ s action, holds s → guard s action → holds (step s action)) :
    Along step guard s actions ↔ Along step other s actions := by
  induction actions generalizing s with
  | nil => exact Iff.rfl
  | cons action actions ih =>
    have here := same s action start
    constructor
    · intro ⟨guarded, later⟩
      exact ⟨here.mp guarded, (ih (keeps s action start guarded)).mp later⟩
    · intro ⟨shown, later⟩
      exact ⟨here.mpr shown, (ih (keeps s action start (here.mpr shown))).mpr later⟩

/-- What guarded steps keep, and what every guarded step shows from it, is shown
all along the run. -/
theorem Along.shows {holds : State → Prop} {shown : State → Action → Prop} {actions : List Action}
    (along : Along step guard s actions) (start : holds s)
    (keeps : ∀ s action, holds s → guard s action → holds (step s action))
    (shows_ : ∀ s action, holds s → guard s action → shown s action) :
    Along step shown s actions := by
  induction actions generalizing s with
  | nil => trivial
  | cons action actions ih =>
    exact ⟨shows_ s action start along.1, ih along.2 (keeps s action start along.1)⟩

/-- Every run is along the guard that says nothing. -/
theorem along_true (actions : List Action) : Along step (fun _ _ => True) s actions := by
  induction actions generalizing s with
  | nil => trivial
  | cons action actions ih => exact ⟨trivial, ih⟩

end Runs

end GoRetroTv
