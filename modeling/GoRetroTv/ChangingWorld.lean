import Mathlib.Data.Stream.Defs

/-!
# Programs that look at a changing world

A program here looks at a world that others change between its looks, so that each look
finds the world as it is then.  A run is given those moments of the world, in turn,
and says what is left of them for what runs next.  Running a program in every stream
of moments is running it against every interleaving of the others' changes with its
looks; in a world that has stopped changing it has one result, its `still` one.
-/

namespace GoRetroTv

/-- A program that looks at a world. -/
inductive Looking (World α : Type) where
  | done (result : α)
  | look (next : World → Looking World α)

namespace Looking

variable {World α β ε : Type}

protected def bind : Looking World α → (α → Looking World β) → Looking World β
  | done result, f => f result
  | look next, f => look fun world => (next world).bind f

instance : Monad (Looking World) where
  pure := done
  bind := Looking.bind

/-- One look. -/
def view (see : World → α) : Looking World α :=
  look fun world => done (see world)

/-- A run, in the moments its looks find, with those it leaves. -/
def during (moments : Stream' World) : Looking World α → α × Stream' World
  | done result => (result, moments)
  | look next => (next moments.head).during moments.tail

/-- The result in a world that stays as it is. -/
def still (world : World) : Looking World α → α
  | done result => result
  | look next => (next world).still world

variable {moments rest : Stream' World} {world : World}

@[simp]
theorem during_pure (result : α) :
    (pure result : Looking World α).during moments = (result, moments) :=
  rfl

@[simp]
theorem during_view (see : World → α) :
    (view see).during moments = (see moments.head, moments.tail) :=
  rfl

@[simp]
theorem during_bind (program : Looking World α) (f : α → Looking World β) :
    (program >>= f).during moments =
      (f (program.during moments).1).during (program.during moments).2 := by
  change (program.bind f).during moments = _
  induction program generalizing moments with
  | done result => rfl
  | look next ih => exact ih _

/-- In a world that has stopped changing a program has its still result, and leaves the
world as it is. -/
theorem during_const (program : Looking World α) :
    program.during (Stream'.const world) = (program.still world, Stream'.const world) := by
  induction program with
  | done result => rfl
  | look next ih => exact ih world

@[simp]
theorem still_pure (result : α) : (pure result : Looking World α).still world = result :=
  rfl

@[simp]
theorem still_bind (program : Looking World α) (f : α → Looking World β) :
    (program >>= f).still world = (f (program.still world)).still world := by
  have both := @during_bind _ _ _ (Stream'.const world) program f
  rw [during_const, during_const, during_const] at both
  exact congrArg Prod.fst both

/-- A result that is there without a look. -/
def given (result : Except ε α) : ExceptT ε (Looking World) α :=
  ExceptT.mk (done result)

/-- One look that may fail. -/
def attempt (see : World → Except ε α) : ExceptT ε (Looking World) α :=
  ExceptT.mk (view see)

/-- The program ends in a result, and the moments it leaves. -/
def Yields (program : ExceptT ε (Looking World) α) (moments : Stream' World) (result : α)
    (rest : Stream' World) : Prop :=
  program.run.during moments = (.ok result, rest)

@[simp]
theorem yields_pure {result found : α} :
    Yields (pure result : ExceptT ε (Looking World) α) moments found rest ↔
      found = result ∧ rest = moments := by
  unfold Yields
  constructor
  · rintro ⟨⟩
    exact ⟨rfl, rfl⟩
  · rintro ⟨rfl, rfl⟩
    rfl

@[simp]
theorem yields_throw {error : ε} {found : α} :
    ¬Yields (throw error : ExceptT ε (Looking World) α) moments found rest := by
  unfold Yields
  rintro ⟨⟩

@[simp]
theorem yields_given {result : Except ε α} {found : α} :
    Yields (given result) moments found rest ↔ result = .ok found ∧ rest = moments := by
  unfold Yields given
  constructor
  · rintro ⟨⟩
    exact ⟨rfl, rfl⟩
  · rintro ⟨rfl, rfl⟩
    rfl

@[simp]
theorem yields_attempt {see : World → Except ε α} {found : α} :
    Yields (attempt see) moments found rest ↔
      see moments.head = .ok found ∧ rest = moments.tail := by
  unfold Yields attempt
  rw [ExceptT.run_mk, during_view, Prod.mk.injEq]
  exact and_congr_right fun _ => eq_comm

theorem yields_bind {program : ExceptT ε (Looking World) α}
    {f : α → ExceptT ε (Looking World) β} {found : β} :
    Yields (program >>= f) moments found rest ↔
      ∃ result later, Yields program moments result later ∧ Yields (f result) later found rest := by
  unfold Yields
  rw [ExceptT.run_bind, during_bind]
  rcases program.run.during moments with ⟨error | result, later⟩
  · constructor
    · rintro ⟨⟩
    · rintro ⟨result, later, ⟨⟩, -⟩
  · constructor
    · intro yields
      exact ⟨result, later, rfl, yields⟩
    · rintro ⟨_, _, ⟨⟩, yields⟩
      exact yields

@[simp]
theorem yields_adapt {program : ExceptT ε (Looking World) α} {context : ε → ε} {found : α} :
    Yields (program.adapt context) moments found rest ↔ Yields program moments found rest := by
  unfold Yields
  have mapped : (program.adapt context).run.during moments =
      ((program.run.during moments).1.mapError context, (program.run.during moments).2) :=
    during_bind program.run fun result => pure (result.mapError context)
  rw [mapped]
  rcases program.run.during moments with ⟨error | result, later⟩
  · constructor <;> rintro ⟨⟩
  · constructor
    · rintro ⟨⟩
      rfl
    · rintro ⟨⟩
      rfl

/-- In a world that has stopped changing, what a program yields is its still result. -/
theorem yields_const {program : ExceptT ε (Looking World) α} {found : α} :
    Yields program (Stream'.const world) found rest ↔
      program.run.still world = .ok found ∧ rest = Stream'.const world := by
  unfold Yields
  rw [during_const, Prod.mk.injEq]
  exact and_congr_right fun _ => eq_comm

/-- A program in the same moments yields one thing. -/
theorem Yields.unique {program : ExceptT ε (Looking World) α} {found other : α}
    {later : Stream' World} (yields : Yields program moments found rest)
    (again : Yields program moments other later) :
    other = found ∧ later = rest := by
  cases yields.symm.trans again
  exact ⟨rfl, rfl⟩

end Looking

end GoRetroTv
