import Mathlib.Tactic.Common

/-!
# Steps that may be refused

Steps over some keys are taken in order.  One loop stops at the first step that is refused, and
another takes every step and keeps the refusals.  When a step puts a value that its key alone
decides, either loop puts the values of the keys it got past.
-/

namespace GoRetroTv

namespace Refusable

variable {κ σ ε : Type}

/-- Steps until one is refused, with its place, its key and its error. -/
def takeSteps (step : κ → σ → Except ε σ) (place : Nat) : List κ → σ → σ × Option (Nat × κ × ε)
  | [], s => (s, none)
  | k :: ks, s =>
      match step k s with
      | .ok s => takeSteps step (place + 1) ks s
      | .error error => (s, some (place, k, error))

/-- Every step, with the keys that refused theirs. -/
def takeAllSteps (step : κ → σ → Except ε σ) : List κ → σ → σ × List (κ × ε)
  | [], s => (s, [])
  | k :: ks, s =>
      match step k s with
      | .ok s => takeAllSteps step ks s
      | .error error =>
          let (s, refusals) := takeAllSteps step ks s
          (s, (k, error) :: refusals)

section Values

variable {α : κ → Type}

/-- A key's value, or another where there is none. -/
def valueOr (value : (k : κ) → Except ε (α k)) (other : (k : κ) → α k) (k : κ) : α k :=
  match value k with
  | .ok a => a
  | .error _ => other k

/-- The values of some keys, put in order. -/
def putAll (put : (k : κ) → α k → σ → σ) (values : (k : κ) → α k) (ks : List κ) (s : σ) : σ :=
  ks.foldl (fun s k => put k (values k) s) s

/-- Under an invariant a step puts the value of its key, if it has one. -/
structure Puts (step : κ → σ → Except ε σ) (value : (k : κ) → Except ε (α k))
    (put : (k : κ) → α k → σ → σ) (invariant : σ → Prop) : Prop where
  step : ∀ k s, invariant s → step k s = (value k).map fun a => put k a s
  keeps : ∀ k s a, invariant s → value k = .ok a → invariant (put k a s)

variable {step : κ → σ → Except ε σ} {value : (k : κ) → Except ε (α k)}
  {put : (k : κ) → α k → σ → σ} {invariant : σ → Prop} {other values : (k : κ) → α k}
  {ks : List κ} {s : σ} {place : Nat}

theorem value_eq_valueOr {k : κ} {a : α k} (here : value k = .ok a) :
    value k = .ok (valueOr value other k) := by
  unfold valueOr
  rw [here]

theorem Puts.step_ok (puts : Puts step value put invariant) {k : κ} {a : α k}
    (holds : invariant s) (here : value k = .ok a) : step k s = .ok (put k a s) := by
  rw [puts.step k s holds, here]
  rfl

theorem Puts.step_error (puts : Puts step value put invariant) {k : κ} {error : ε}
    (holds : invariant s) (here : value k = .error error) : step k s = .error error := by
  rw [puts.step k s holds, here]
  rfl

theorem Puts.putAll (puts : Puts step value put invariant) (holds : invariant s)
    (here : ∀ k ∈ ks, value k = .ok (values k)) : invariant (putAll put values ks s) := by
  induction ks generalizing s with
  | nil => exact holds
  | cons k ks ih =>
    exact ih (puts.keeps k s (values k) holds (here k List.mem_cons_self))
      fun later member => here later (List.mem_cons_of_mem k member)

/-- The loop puts every value, or those before the first key that has none. -/
theorem Puts.takeSteps (puts : Puts step value put invariant) (holds : invariant s)
    (other : (k : κ) → α k) (place : Nat) (ks : List κ) :
    ((∀ k ∈ ks, value k = .ok (valueOr value other k)) ∧
      Refusable.takeSteps step place ks s =
        (Refusable.putAll put (valueOr value other) ks s, none)) ∨
    ∃ done k rest error, ks = done ++ k :: rest ∧ value k = .error error ∧
      (∀ k ∈ done, value k = .ok (valueOr value other k)) ∧
      Refusable.takeSteps step place ks s =
        (Refusable.putAll put (valueOr value other) done s,
          some (place + done.length, k, error)) := by
  induction ks generalizing s place with
  | nil => exact .inl ⟨fun k member => (by cases member), rfl⟩
  | cons k ks ih =>
    unfold Refusable.takeSteps
    cases here : value k with
    | error error =>
      rw [puts.step_error holds here]
      exact .inr ⟨[], k, ks, error, rfl, here, fun k member => (by cases member), rfl⟩
    | ok a =>
      rw [puts.step_ok holds here]
      have first := @value_eq_valueOr _ _ _ _ other _ _ here
      have same : valueOr value other k = a := Except.ok.inj (first.symm.trans here)
      dsimp only
      rcases ih (puts.keeps k s a holds here) (place + 1) with
        ⟨all, taken⟩ | ⟨done, refused, rest, error, split, error_, before, taken⟩
      · refine .inl ⟨fun later member => ?_, ?_⟩
        · rcases List.mem_cons.mp member with rfl | member
          · exact first
          · exact all later member
        · rw [taken]
          unfold Refusable.putAll
          rw [List.foldl_cons, same]
      · refine .inr ⟨k :: done, refused, rest, error, by rw [split]; rfl, error_, ?_, ?_⟩
        · intro later member
          rcases List.mem_cons.mp member with rfl | member
          · exact first
          · exact before later member
        · rw [taken]
          unfold Refusable.putAll
          rw [List.foldl_cons, same, List.length_cons, Nat.add_assoc, Nat.add_comm 1]

/-- Without refusals every value was put; a refusal is a key without a value. -/
theorem Puts.takeAllSteps (puts : Puts step value put invariant) (holds : invariant s)
    (other : (k : κ) → α k) (ks : List κ) :
    ((∀ k ∈ ks, value k = .ok (valueOr value other k)) ∧
      Refusable.takeAllSteps step ks s =
        (Refusable.putAll put (valueOr value other) ks s, [])) ∨
    (∃ k ∈ ks, ∃ error, value k = .error error) ∧
      (Refusable.takeAllSteps step ks s).2 ≠ [] := by
  induction ks generalizing s with
  | nil => exact .inl ⟨fun k member => (by cases member), rfl⟩
  | cons k ks ih =>
    unfold Refusable.takeAllSteps
    cases here : value k with
    | error error =>
      rw [puts.step_error holds here]
      exact .inr ⟨⟨k, List.mem_cons_self, error, here⟩, List.cons_ne_nil _ _⟩
    | ok a =>
      rw [puts.step_ok holds here]
      have first := @value_eq_valueOr _ _ _ _ other _ _ here
      have same : valueOr value other k = a := Except.ok.inj (first.symm.trans here)
      dsimp only
      rcases ih (puts.keeps k s a holds here) with ⟨all, taken⟩ | ⟨⟨refused, member, error⟩, some_⟩
      · refine .inl ⟨fun later member => ?_, ?_⟩
        · rcases List.mem_cons.mp member with rfl | member
          · exact first
          · exact all later member
        · rw [taken]
          unfold Refusable.putAll
          rw [List.foldl_cons, same]
      · exact .inr ⟨⟨refused, List.mem_cons_of_mem k member, error⟩, some_⟩

end Values

end Refusable

end GoRetroTv
