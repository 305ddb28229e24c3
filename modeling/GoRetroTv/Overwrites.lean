import Mathlib.Data.List.Forall2
import Mathlib.Tactic.Common

/-!
# Writes that may fall on one another

A stateful computation writes values to locations, in an order that is left open: where
several fall on one location, it ends with the value of one of them.  Writes that agree
leave what they say.
-/

namespace GoRetroTv

namespace Overwrites

variable {Location Value : Type*}

/-- A location that nothing is written to keeps its value, and any other ends with a value
written to it. -/
structure Wrote (writes : Location → Value → Prop) (before after : Location → Value) : Prop where
  kept : ∀ l, (∀ v, ¬writes l v) → after l = before l
  ended : ∀ l v, writes l v → writes l (after l)

namespace Wrote

variable {writes later : Location → Value → Prop} {before middle after : Location → Value}

theorem nothing (contents : Location → Value) : Wrote (fun _ _ => False) contents contents where
  kept _ _ := rfl
  ended _ _ written := written.elim

theorem trans (first : Wrote writes before middle) (second : Wrote later middle after) :
    Wrote (fun l v => writes l v ∨ later l v) before after where
  kept l unwritten := by
    have here := second.kept l fun v written => unwritten v (.inr written)
    exact here.trans (first.kept l fun v written => unwritten v (.inl written))
  ended l v written := by
    by_cases again : ∃ v, later l v
    · obtain ⟨value, isLater⟩ := again
      exact .inr (second.ended l value isLater)
    · have same : after l = middle l := second.kept l fun value isLater => again ⟨value, isLater⟩
      rw [same]
      rcases written with early | late
      · exact .inl (first.ended l v early)
      · exact absurd ⟨v, late⟩ again

theorem congr (wrote : Wrote writes before after) (same : ∀ l v, writes l v ↔ later l v) :
    Wrote later before after where
  kept l unwritten := wrote.kept l fun v written => unwritten v ((same l v).mp written)
  ended l v written := (same l _).mp (wrote.ended l v ((same l v).mpr written))

/-- Writes that agree leave their value. -/
theorem eq_of_agree (wrote : Wrote writes before after) {l : Location} {v : Value}
    (written : writes l v) (agree : ∀ v', writes l v' → v' = v) : after l = v :=
  agree _ (wrote.ended l v written)

end Wrote

section Loops

variable {σ α β : Type} {view : σ → Location → Value} {state state' : σ}

/-- An action that goes on from another. -/
theorem exists_of_bind_ok {first : EStateM String σ α} {next : α → EStateM String σ β} {value : β}
    (succeeds : (first >>= next) state = .ok value state') :
    ∃ a middle, first state = .ok a middle ∧ next a middle = .ok value state' := by
  simp only [bind, EStateM.bind] at succeeds
  cases ran : first state with
  | error error middle =>
    rw [ran] at succeeds
    cases succeeds
  | ok a middle =>
    rw [ran] at succeeds
    exact ⟨a, middle, rfl, succeeds⟩

/-- A loop writes what its rounds write. -/
theorem wrote_forM {list : List α} {action : α → EStateM String σ PUnit}
    {writes : α → Location → Value → Prop}
    (each : ∀ a ∈ list, ∀ s s', action a s = .ok ⟨⟩ s' → Wrote (writes a) (view s) (view s'))
    (succeeds : list.forM action state = .ok ⟨⟩ state') :
    Wrote (fun l v => ∃ a ∈ list, writes a l v) (view state) (view state') := by
  induction list generalizing state with
  | nil =>
    cases succeeds
    exact (Wrote.nothing _).congr fun l v => by simp
  | cons a list ih =>
    change (action a >>= fun _ => list.forM action) state = _ at succeeds
    obtain ⟨_, middle, ran, later⟩ := exists_of_bind_ok succeeds
    have first := each a List.mem_cons_self state middle ran
    have rest := ih (fun other member => each other (List.mem_cons_of_mem a member)) later
    exact (first.trans rest).congr fun l v => by simp

/-- A loop of reads leaves the state alone and reads in order. -/
theorem read_mapM' {list : List α} {action : α → EStateM String σ β} {reads : α → β → Prop}
    {values : List β}
    (each : ∀ a ∈ list, ∀ b s', action a state = .ok b s' → s' = state ∧ reads a b)
    (succeeds : list.mapM' action state = .ok values state') :
    state' = state ∧ List.Forall₂ reads list values := by
  induction list generalizing values state' with
  | nil =>
    cases succeeds
    exact ⟨rfl, .nil⟩
  | cons a list ih =>
    rw [List.mapM'_cons] at succeeds
    obtain ⟨value, middle, ran, later⟩ := exists_of_bind_ok succeeds
    obtain ⟨same, isRead⟩ := each a List.mem_cons_self value middle ran
    rw [same] at later
    obtain ⟨others, last, rest, ends⟩ := exists_of_bind_ok later
    obtain ⟨unchanged, allRead⟩ :=
      ih (fun other member => each other (List.mem_cons_of_mem a member)) rest
    cases ends
    exact ⟨unchanged, .cons isRead allRead⟩

/-- The values read for a range, with their places. -/
theorem zipIdx_of_range {n : Nat} {reads : Nat → β → Prop} {values : List β}
    (each : List.Forall₂ reads (List.range n) values) :
    (∀ p ∈ values.zipIdx, p.2 < n ∧ reads p.2 p.1) ∧ ∀ i < n, ∃ b, (b, i) ∈ values.zipIdx := by
  obtain ⟨length, readAt⟩ := List.forall₂_iff_get.mp each
  rw [List.length_range] at length
  constructor
  · rintro ⟨b, i⟩ member
    obtain ⟨inside, here⟩ := List.getElem?_eq_some_iff.mp (List.mem_zipIdx_iff_getElem?.mp member)
    have isRead := readAt i (by rw [List.length_range, length]; exact inside) inside
    rw [List.get_eq_getElem, List.get_eq_getElem, List.getElem_range] at isRead
    exact ⟨length ▸ inside, here ▸ isRead⟩
  · intro i inside
    refine ⟨values[i], List.mem_zipIdx_iff_getElem?.mpr ?_⟩
    exact List.getElem?_eq_getElem (length ▸ inside)

/-- The values read for a list, beside what they were read for. -/
theorem zip_of_forall₂ {reads : α → β → Prop} {list : List α} {values : List β}
    (each : List.Forall₂ reads list values) :
    (∀ p ∈ list.zip values, p.1 ∈ list ∧ reads p.1 p.2) ∧
      ∀ a ∈ list, ∃ b, (a, b) ∈ list.zip values := by
  induction each with
  | nil => exact ⟨nofun, nofun⟩
  | @cons a b list values isRead _ ih =>
    rw [List.zip_cons_cons]
    constructor
    · intro p member
      rcases List.mem_cons.mp member with rfl | later
      · exact ⟨List.mem_cons_self, isRead⟩
      · exact ⟨List.mem_cons_of_mem a (ih.1 p later).1, (ih.1 p later).2⟩
    · intro other member
      rcases List.mem_cons.mp member with rfl | later
      · exact ⟨b, List.mem_cons_self⟩
      · obtain ⟨value, beside⟩ := ih.2 other later
        exact ⟨value, List.mem_cons_of_mem _ beside⟩

end Loops

end Overwrites

end GoRetroTv
