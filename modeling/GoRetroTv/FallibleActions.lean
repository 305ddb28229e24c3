import Mathlib.Algebra.Group.Nat.Defs
import Mathlib.Tactic.Common

/-!
# Actions that may fail

A stateful computation keeps the state it had reached when it fails.  Two
judgements about it, a bound on its error text and a property of the state that
it keeps either way, follow its sequencing, loops and prefixes.
-/

namespace GoRetroTv

variable {σ α β : Type}

/-- Whatever state it starts from, a failure's text is no longer than this. -/
def FailsWithin (bound : Nat) (action : EStateM String σ α) : Prop :=
  ∀ state error state', action state = .error error state' → error.length ≤ bound

/-- Put a prefix before the error of an action. -/
def prefixing (label : String) (action : EStateM String σ α) : EStateM String σ α := fun state =>
  match action state with
  | .ok value state => .ok value state
  | .error error state => .error (label ++ error) state

/-- A number's text in a message. -/
theorem length_repr_le {number places : Nat} (positive : 0 < places)
    (small : number < 10 ^ places) : (toString number).length ≤ places :=
  (Nat.length_repr_le_iff positive).mpr small

/-- A fallible computation that goes on from another. -/
theorem bind_eq_ok {first : Except String α} {next : α → Except String β} {result : β} :
    (first >>= next) = .ok result ↔ ∃ value, first = .ok value ∧ next value = .ok result := by
  constructor
  · intro succeeded
    cases first with
    | error error => cases succeeded
    | ok value => exact ⟨value, rfl, succeeded⟩
  · rintro ⟨value, rfl, succeeded⟩
    exact succeeded

/-- A check that did not fail. -/
theorem check_ok {condition : Prop} [Decidable condition] {error : String}
    {next : PUnit → Except String β} {result : β}
    (succeeded : (if condition then throw error >>= next else next ⟨⟩) = .ok result) :
    ¬ condition ∧ next ⟨⟩ = .ok result := by
  by_cases failed : condition
  · rw [if_pos failed] at succeeded
    cases succeeded
  · rw [if_neg failed] at succeeded
    exact ⟨failed, succeeded⟩

namespace FailsWithin

variable {bound : Nat}

theorem pure (value : α) : FailsWithin (σ := σ) bound (Pure.pure value) := by
  intro state error state' failed
  cases failed

theorem throw {error : String} (short : error.length ≤ bound) :
    FailsWithin (σ := σ) bound (MonadExcept.throw error : EStateM String σ α) := by
  intro state error' state' failed
  cases failed
  exact short

theorem bind {action : EStateM String σ α} {next : α → EStateM String σ β}
    (first : FailsWithin bound action) (second : ∀ value, FailsWithin bound (next value)) :
    FailsWithin bound (action >>= next) := by
  intro state error state' failed
  simp only [Bind.bind, EStateM.bind] at failed
  cases ran : action state with
  | ok value middle =>
      rw [ran] at failed
      exact second value middle error state' failed
  | error error' middle =>
      rw [ran] at failed
      cases failed
      exact first state _ _ ran

theorem forM {list : List α} {action : α → EStateM String σ PUnit}
    (each : ∀ value ∈ list, FailsWithin bound (action value)) :
    FailsWithin bound (list.forM action) := by
  induction list with
  | nil => exact FailsWithin.pure _
  | cons value list ih =>
      show FailsWithin bound (action value >>= fun _ => list.forM action)
      apply FailsWithin.bind (each value List.mem_cons_self)
      intro _
      exact ih fun later member => each later (List.mem_cons_of_mem value member)

theorem mapM' {list : List α} {action : α → EStateM String σ β}
    (each : ∀ value ∈ list, FailsWithin bound (action value)) :
    FailsWithin bound (list.mapM' action) := by
  induction list with
  | nil => exact FailsWithin.pure _
  | cons value list ih =>
      rw [List.mapM'_cons]
      apply FailsWithin.bind (each value List.mem_cons_self)
      intro _
      apply FailsWithin.bind
      · exact ih fun later member => each later (List.mem_cons_of_mem value member)
      · exact fun _ => FailsWithin.pure _

theorem prefixing {label : String} {total : Nat} {action : EStateM String σ α}
    (fails : FailsWithin bound action) (fits : label.length + bound ≤ total) :
    FailsWithin total (GoRetroTv.prefixing label action) := by
  intro state error state' failed
  simp only [GoRetroTv.prefixing] at failed
  cases ran : action state with
  | ok value middle =>
      rw [ran] at failed
      cases failed
  | error error' middle =>
      rw [ran] at failed
      cases failed
      rw [String.length_append]
      exact Nat.le_trans (Nat.add_le_add_left (fails state _ _ ran) _) fits

end FailsWithin

/-- A property of the state that an action keeps, whether it fails or not. -/
def Keeps (property : σ → Prop) (action : EStateM String σ α) : Prop :=
  ∀ state, property state →
    match action state with
    | .ok _ state' => property state'
    | .error _ state' => property state'

namespace Keeps

variable {property : σ → Prop}

theorem pure (value : α) : Keeps property (Pure.pure value) :=
  fun _ holds => holds

theorem throw (error : String) :
    Keeps property (MonadExcept.throw error : EStateM String σ α) :=
  fun _ holds => holds

theorem get : Keeps property (MonadStateOf.get : EStateM String σ σ) :=
  fun _ holds => holds

theorem modify {change : σ → σ} (keeps : ∀ state, property state → property (change state)) :
    Keeps property (MonadStateOf.modifyGet fun state => (PUnit.unit, change state) : EStateM String σ PUnit) :=
  keeps

theorem bind {action : EStateM String σ α} {next : α → EStateM String σ β}
    (first : Keeps property action) (second : ∀ value, Keeps property (next value)) :
    Keeps property (action >>= next) := by
  intro state holds
  have middle := first state holds
  simp only [Bind.bind, EStateM.bind]
  cases ran : action state with
  | ok value state' =>
      rw [ran] at middle
      exact second value state' middle
  | error error state' =>
      rw [ran] at middle
      exact middle

theorem forM {list : List α} {action : α → EStateM String σ PUnit}
    (each : ∀ value, Keeps property (action value)) :
    Keeps property (list.forM action) := by
  induction list with
  | nil => exact Keeps.pure _
  | cons value list ih =>
      show Keeps property (action value >>= fun _ => list.forM action)
      exact Keeps.bind (each value) fun _ => ih

theorem mapM' {list : List α} {action : α → EStateM String σ β}
    (each : ∀ value, Keeps property (action value)) :
    Keeps property (list.mapM' action) := by
  induction list with
  | nil => exact Keeps.pure _
  | cons value list ih =>
      rw [List.mapM'_cons]
      apply Keeps.bind (each value)
      intro _
      exact Keeps.bind ih fun _ => Keeps.pure _

theorem prefixing {label : String} {action : EStateM String σ α} (keeps : Keeps property action) :
    Keeps property (GoRetroTv.prefixing label action) := by
  intro state holds
  have after := keeps state holds
  simp only [GoRetroTv.prefixing]
  cases ran : action state with
  | ok value state' =>
      rw [ran] at after
      exact after
  | error error state' =>
      rw [ran] at after
      exact after

end Keeps

end GoRetroTv
