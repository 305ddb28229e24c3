import Mathlib.Data.List.Induction

/-!
# Choosing greedily

Items come one after another, and each joins the chosen ones if they still fit
with it.  The items have keys that grow, so that what was chosen before an item
can be told from the choice at the end.  The greedy choice is the only one whose
beginnings all fit, and that leaves out an item only if it does not fit with
what was chosen before it.
-/

namespace GoRetroTv

namespace Greedy

variable {Item : Type*} {fits : List Item → Bool} {key : Item → Nat}

/-- Each item joins the chosen ones if they fit with it. -/
def choose (fits : List Item → Bool) (chosen : List Item) : List Item → List Item
  | [] => chosen
  | item :: items =>
      choose fits (if fits (chosen ++ [item]) then chosen ++ [item] else chosen) items

/-- The chosen items with a key below a bound. -/
def below (key : Item → Nat) (bound : Nat) (chosen : List Item) : List Item :=
  chosen.filter fun item => decide (key item < bound)

/-- The keys grow, also from the chosen items to those that come. -/
def Growing (key : Item → Nat) (chosen items : List Item) : Prop :=
  (chosen ++ items).Pairwise fun first second => key first < key second

/-- A choice that a greedy one may make of the items that come. -/
structure Chooses (fits : List Item → Bool) (key : Item → Nat)
    (chosen items choice : List Item) : Prop where
  taken : ∃ more, choice = chosen ++ more ∧ more.Sublist items
  begins : ∀ first item rest, choice = chosen ++ (first ++ item :: rest) →
    fits (chosen ++ (first ++ [item])) = true
  leftOut : ∀ item ∈ items, item ∉ choice → fits (below key (key item) choice ++ [item]) = false

theorem below_append (bound : Nat) (first second : List Item) :
    below key bound (first ++ second) = below key bound first ++ below key bound second :=
  List.filter_append ..

theorem below_of_le {bound : Nat} {items : List Item}
    (above : ∀ item ∈ items, bound ≤ key item) : below key bound items = [] := by
  rw [below, List.filter_eq_nil_iff]
  intro item member
  rw [decide_eq_true_eq]
  exact Nat.not_lt.mpr (above item member)

theorem below_of_lt {bound : Nat} {items : List Item}
    (under : ∀ item ∈ items, key item < bound) : below key bound items = items := by
  rw [below, List.filter_eq_self]
  intro item member
  exact decide_eq_true (under item member)

namespace Growing

theorem lt_head {chosen items : List Item} {item : Item}
    (growing : Growing key chosen (item :: items)) : ∀ first ∈ chosen, key first < key item :=
  fun first member => (List.pairwise_append.mp growing).2.2 first member item List.mem_cons_self

theorem head_lt {chosen items : List Item} {item : Item}
    (growing : Growing key chosen (item :: items)) : ∀ later ∈ items, key item < key later :=
  fun later member =>
    (List.pairwise_cons.mp (List.pairwise_append.mp growing).2.1).1 later member

theorem skip {chosen items : List Item} {item : Item}
    (growing : Growing key chosen (item :: items)) : Growing key chosen items :=
  growing.sublist ((List.Sublist.refl chosen).append (List.sublist_cons_self item items))

end Growing

/-- The beginning of a choice before an item that has just come. -/
theorem below_head {chosen items more : List Item} {item : Item}
    (growing : Growing key chosen (item :: items)) (later : more.Sublist items) :
    below key (key item) (chosen ++ more) = chosen := by
  rw [below_append, below_of_lt growing.lt_head, below_of_le, List.append_nil]
  intro other member
  exact Nat.le_of_lt (growing.head_lt other (later.subset member))

namespace Chooses

theorem done (chosen : List Item) : Chooses fits key chosen [] chosen where
  taken := ⟨[], (List.append_nil chosen).symm, .slnil⟩
  begins := by
    intro first item rest same
    have lengths := congrArg List.length same
    rw [List.length_append, List.length_append, List.length_cons] at lengths
    omega
  leftOut := fun item member => absurd member List.not_mem_nil

theorem take {chosen items choice : List Item} {item : Item} (joins : fits (chosen ++ [item]) = true)
    (chooses : Chooses fits key (chosen ++ [item]) items choice) :
    Chooses fits key chosen (item :: items) choice := by
  obtain ⟨more, rfl, later⟩ := chooses.taken
  refine ⟨⟨item :: more, by simp, later.cons_cons item⟩, ?_, ?_⟩
  · intro first other rest same
    rw [List.append_assoc, List.append_cancel_left_eq] at same
    cases first with
    | nil =>
      obtain rfl : item = other := (List.cons.inj same).1
      exact joins
    | cons head first =>
      obtain ⟨rfl, rfl⟩ := List.cons.inj same
      have begins := chooses.begins first other rest rfl
      rw [List.append_assoc] at begins
      exact begins
  · intro other member absent
    rcases List.mem_cons.mp member with rfl | inside
    · exact absurd (by simp) absent
    · exact chooses.leftOut other inside absent

theorem skip {chosen items choice : List Item} {item : Item}
    (growing : Growing key chosen (item :: items)) (overflows : fits (chosen ++ [item]) = false)
    (chooses : Chooses fits key chosen items choice) :
    Chooses fits key chosen (item :: items) choice := by
  obtain ⟨more, rfl, later⟩ := chooses.taken
  refine ⟨⟨more, rfl, later.cons item⟩, chooses.begins, ?_⟩
  intro other member absent
  rcases List.mem_cons.mp member with rfl | inside
  · rw [below_head growing later]
    exact overflows
  · exact chooses.leftOut other inside absent

end Chooses

end Greedy

end GoRetroTv
