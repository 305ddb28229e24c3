import GoRetroTv.BroadcastCarouselWake
import GoRetroTv.GuardedRuns

/-!
# The ladder of the carousel's rungs

A rung is held back until the one below it has gone out and has had its settle.
`Wave` marks a rung as sent when its source has answered, before the later rungs
of the same wave are asked; when one of those fails, the sections are dropped and
the mark stays.
-/

namespace GoRetroTv

variable {σ : Type}

namespace Carousel

def afterClock (c : Carousel σ) (now : Nat) (world : σ) : WaveStep σ :=
  WaveStep.clockRung now { carousel := c.start now, world }

def afterLineup (c : Carousel σ) (now : Nat) (world : σ) : WaveStep σ :=
  (c.afterClock now world).unlessFailed (WaveStep.lineupRung now)

def afterTitles (c : Carousel σ) (now : Nat) (world : σ) : WaveStep σ :=
  (c.afterLineup now world).unlessFailed (WaveStep.titlesRung now)

def afterEvents (c : Carousel σ) (now : Nat) (world : σ) : WaveStep σ :=
  (c.afterTitles now world).unlessFailed (WaveStep.eventsRung now)

def afterProgrammes (c : Carousel σ) (now : Nat) (world : σ) : WaveStep σ :=
  (c.afterEvents now world).unlessFailed (WaveStep.programmesRung now)

/-- The sections that joined a wave between two of its steps. -/
def joined (before after : WaveStep σ) : List Emission :=
  after.wave.drop before.wave.length

/-- The sections of a rung's source that a wave returned. -/
def carried (c : Carousel σ) (now : Nat) (world : σ) (rung : Rung) : List Emission :=
  if (c.wave now world).error.isSome then []
  else
    match rung with
    | .clock => (c.afterClock now world).wave
    | .lineup => joined (c.afterClock now world) (c.afterLineup now world)
    | .titles => joined (c.afterLineup now world) (c.afterTitles now world)
    | .events => joined (c.afterTitles now world) (c.afterEvents now world)
    | .programmes => joined (c.afterEvents now world) (c.afterProgrammes now world)
    | .index => joined (c.afterProgrammes now world) (c.wave now world)

/-- A wave that was returned: when, and what it carried. -/
structure OnAir where
  now : Nat
  carried : Rung → List Emission

/-- The carousel and what has been on the air. -/
structure Air (σ : Type) where
  carousel : Carousel σ
  log : List OnAir := []

/-- One call of `Wave`, with whatever state the sources are in. -/
structure WaveCall (σ : Type) where
  now : Nat
  world : σ

namespace Air

def wave (a : Air σ) (call : WaveCall σ) : WaveStep σ :=
  a.carousel.wave call.now call.world

def perform (a : Air σ) (call : WaveCall σ) : Air σ where
  carousel := (a.wave call).carousel
  log :=
    if (a.wave call).error.isSome then a.log
    else a.log ++ [{ now := call.now, carried := a.carousel.carried call.now call.world }]

end Air

/-- The rung below has gone out on a returned wave, and its settle has passed. -/
def Released (log : List OnAir) (below : Rung) (settle now : Nat) : Prop :=
  ∃ earlier ∈ log, earlier.carried below ≠ [] ∧ earlier.now + settle ≤ now

/-- What a wave carries has been released. -/
structure Ordered (schedule : Schedule) (log : List OnAir) (now : Nat)
    (carried : Rung → List Emission) : Prop where
  lineup : carried .lineup ≠ [] → Released log .clock schedule.clockSettle now
  titles : carried .titles ≠ [] → Released log .lineup schedule.lineupSettle now
  events : carried .events ≠ [] → Released log .lineup schedule.lineupSettle now
  programmes : carried .programmes ≠ [] → Released log .lineup schedule.lineupSettle now
  index : carried .index ≠ [] → Released log .titles schedule.titleSettle now

namespace Air

/-- A source that fails is the first the wave asks; and while a rung has not gone
out, the count with the rung's settle fits sixty-four bits. -/
structure FailsFirst (a : Air σ) (call : WaveCall σ) : Prop where
  first : (a.wave call).error.isSome = true → (a.wave call).calls.length ≤ 1
  clock : a.carousel.sentClock = false →
    call.now + a.carousel.schedule.clockSettle < countLimit
  lineup : a.carousel.sentLineup = false →
    call.now + a.carousel.schedule.lineupSettle < countLimit
  titles : a.carousel.sentTitles = false →
    call.now + a.carousel.schedule.titleSettle < countLimit

end Air

/-- A rung's mark: whether it has gone out, when first, and its settle. -/
structure Mark (σ : Type) where
  sent : Carousel σ → Bool
  first : Carousel σ → Nat
  settle : Schedule → Nat

def clockMark : Mark σ :=
  ⟨sentClock, clockedAt, Schedule.clockSettle⟩

def lineupMark : Mark σ :=
  ⟨sentLineup, lineupAt, Schedule.lineupSettle⟩

def titlesMark : Mark σ :=
  ⟨sentTitles, titledAt, Schedule.titleSettle⟩

namespace Mark

/-- A step that leaves a mark alone. -/
def Keeps (mark : Mark σ) (before after : Carousel σ) : Prop :=
  mark.sent after = mark.sent before ∧ mark.first after = mark.first before

/-- A step that may set a mark, when sections go out. -/
def Sets (mark : Mark σ) (now : Nat) (sections : List Emission) (before after : Carousel σ) :
    Prop :=
  mark.Keeps before after ∨
    mark.sent before = false ∧ sections ≠ [] ∧ mark.first after = now

/-- A mark that is set goes back to a returned wave. -/
def Backed (mark : Mark σ) (rung : Rung) (log : List OnAir) (c : Carousel σ) : Prop :=
  mark.sent c = true →
    (∃ earlier ∈ log, earlier.carried rung ≠ [] ∧ earlier.now = mark.first c) ∧
      mark.first c + mark.settle c.schedule < countLimit

theorem Keeps.refl (mark : Mark σ) (c : Carousel σ) : mark.Keeps c c :=
  ⟨rfl, rfl⟩

theorem Keeps.trans {mark : Mark σ} {before middle after : Carousel σ}
    (first : mark.Keeps before middle) (second : mark.Keeps middle after) :
    mark.Keeps before after :=
  ⟨second.1.trans first.1, second.2.trans first.2⟩

theorem Sets.keeps {mark : Mark σ} {now : Nat} {sections : List Emission}
    {first before after last : Carousel σ} (sets : mark.Sets now sections before after)
    (early : mark.Keeps first before) (late : mark.Keeps after last) :
    mark.Sets now sections first last := by
  rcases sets with keeps | ⟨unset, some_, isFirst⟩
  · exact .inl ((early.trans keeps).trans late)
  · exact .inr ⟨early.1.symm.trans unset, some_, late.2.trans isFirst⟩

/-- A mark stays backed over a wave that was returned. -/
theorem Backed.wave {mark : Mark σ} {rung : Rung} {log : List OnAir} {c after : Carousel σ}
    {entry : OnAir} (backed : mark.Backed rung log c)
    (schedule : after.schedule = c.schedule)
    (fits : mark.sent c = false → entry.now + mark.settle c.schedule < countLimit)
    (sets : mark.Sets entry.now (entry.carried rung) c after) :
    mark.Backed rung (log ++ [entry]) after := by
  intro sent
  rw [schedule]
  rcases sets with ⟨sameSent, sameFirst⟩ | ⟨unset, some_, isFirst⟩
  · obtain ⟨⟨earlier, member, went, isNow⟩, bound⟩ := backed (sameSent ▸ sent)
    rw [sameFirst]
    exact ⟨⟨earlier, List.mem_append_left _ member, went, isNow⟩, bound⟩
  · rw [isFirst]
    exact ⟨⟨entry, List.mem_append_right _ (List.mem_singleton_self _), some_, rfl⟩, fits unset⟩

/-- A rung above that is due has been released. -/
theorem Backed.released {mark : Mark σ} {rung : Rung} {log : List OnAir} {c : Carousel σ} {now : Nat}
    (backed : mark.Backed rung log c) (sent : mark.sent c = true)
    (settled : wrapAdd (mark.first c) (mark.settle c.schedule) ≤ now) :
    Released log rung (mark.settle c.schedule) now := by
  obtain ⟨⟨earlier, member, went, isNow⟩, bound⟩ := backed sent
  rw [wrapAdd_of_lt bound] at settled
  exact ⟨earlier, member, went, by rw [isNow]; exact settled⟩

end Mark

theorem recordClock_sets (now : Nat) (c : Carousel σ) (sections : List Emission) :
    clockMark.Sets now sections c (recordClock now c sections) := by
  unfold recordClock
  dsimp only
  split
  next sets =>
    simp only [Bool.and_eq_true, Bool.not_eq_true', decide_eq_true_eq] at sets
    exact .inr ⟨sets.1, List.length_pos_iff.mp sets.2, rfl⟩
  next => exact .inl ⟨rfl, rfl⟩

theorem recordLineup_sets (now : Nat) (c : Carousel σ) (sections : List Emission) :
    lineupMark.Sets now sections c (recordLineup now c sections) := by
  unfold recordLineup
  dsimp only
  split
  next sets =>
    simp only [Bool.and_eq_true, Bool.not_eq_true', decide_eq_true_eq] at sets
    exact .inr ⟨sets.1, List.length_pos_iff.mp sets.2, rfl⟩
  next => exact .inl ⟨rfl, rfl⟩

theorem recordTitles_sets (now : Nat) (c : Carousel σ) (sections : List Emission) :
    titlesMark.Sets now sections c (recordTitles now c sections) := by
  unfold recordTitles
  dsimp only
  split
  next sets =>
    simp only [Bool.and_eq_true, Bool.not_eq_true', decide_eq_true_eq] at sets
    exact .inr ⟨sets.1, List.length_pos_iff.mp sets.2, rfl⟩
  next => exact .inl ⟨rfl, rfl⟩

/-- Marks that a rung's record leaves alone. -/
theorem recordClock_keeps (now : Nat) (c : Carousel σ) (sections : List Emission) :
    lineupMark.Keeps c (recordClock now c sections) ∧
      titlesMark.Keeps c (recordClock now c sections) := by
  unfold recordClock
  dsimp only
  split <;> exact ⟨⟨rfl, rfl⟩, ⟨rfl, rfl⟩⟩

theorem recordLineup_keeps (now : Nat) (c : Carousel σ) (sections : List Emission) :
    clockMark.Keeps c (recordLineup now c sections) ∧
      titlesMark.Keeps c (recordLineup now c sections) := by
  unfold recordLineup
  dsimp only
  split <;> exact ⟨⟨rfl, rfl⟩, ⟨rfl, rfl⟩⟩

theorem recordTitles_keeps (now : Nat) (c : Carousel σ) (sections : List Emission) :
    clockMark.Keeps c (recordTitles now c sections) ∧
      lineupMark.Keeps c (recordTitles now c sections) := by
  unfold recordTitles
  dsimp only
  split <;> exact ⟨⟨rfl, rfl⟩, ⟨rfl, rfl⟩⟩

/-- No mark changes. -/
def KeepsMarks (before after : Carousel σ) : Prop :=
  clockMark.Keeps before after ∧ lineupMark.Keeps before after ∧ titlesMark.Keeps before after

theorem start_keeps (c : Carousel σ) (now : Nat) : KeepsMarks c (c.start now) := by
  unfold start
  split <;> exact ⟨⟨rfl, rfl⟩, ⟨rfl, rfl⟩, ⟨rfl, rfl⟩⟩

/-- A rung that has not failed was passed over, or was due and is recorded with
the sections that joined the wave. -/
theorem rung_cases {rung : Rung} {name : String} {due : Carousel σ → Nat → Bool}
    {source : Option (SourceFn σ)} {record : Nat → Carousel σ → List Emission → Carousel σ}
    {now : Nat} {step : WaveStep σ}
    (succeeded : (WaveStep.rung rung name due source record now step).error = none) :
    ((WaveStep.rung rung name due source record now step).carousel = step.carousel ∧
        joined step (WaveStep.rung rung name due source record now step) = []) ∨
      due step.carousel now = true ∧
        (WaveStep.rung rung name due source record now step).carousel =
          record now step.carousel
            (joined step (WaveStep.rung rung name due source record now step)) := by
  unfold joined
  cases source with
  | none => exact .inl ⟨rfl, List.drop_length⟩
  | some source =>
    by_cases isDue : due step.carousel now = true
    · simp only [WaveStep.rung, isDue, if_true, WaveStep.callSource] at succeeded ⊢
      right
      split at succeeded
      next => cases succeeded
      next sections world answered =>
        simp only [List.drop_left]
        exact ⟨trivial, trivial⟩
    · simp only [WaveStep.rung, isDue]
      exact .inl ⟨rfl, List.drop_length⟩

/-- A rung sets its own mark by what it carries. -/
theorem rung_sets {rung : Rung} {name : String} {due : Carousel σ → Nat → Bool}
    {source : Option (SourceFn σ)} {record : Nat → Carousel σ → List Emission → Carousel σ}
    {now : Nat} {step : WaveStep σ} {mark : Mark σ}
    (sets : ∀ c sections, mark.Sets now sections c (record now c sections))
    (succeeded : (WaveStep.rung rung name due source record now step).error = none) :
    mark.Sets now (joined step (WaveStep.rung rung name due source record now step)) step.carousel
      (WaveStep.rung rung name due source record now step).carousel := by
  rcases rung_cases succeeded with ⟨same, _⟩ | ⟨_, recorded⟩
  · rw [same]
    exact .inl (.refl mark _)
  · exact recorded ▸ sets step.carousel _

/-- A rung leaves the marks alone that its record leaves alone. -/
theorem rung_mark_keeps {rung : Rung} {name : String} {due : Carousel σ → Nat → Bool}
    {source : Option (SourceFn σ)} {record : Nat → Carousel σ → List Emission → Carousel σ}
    {now : Nat} {step : WaveStep σ} {mark : Mark σ}
    (keeps : ∀ c sections, mark.Keeps c (record now c sections)) :
    mark.Keeps step.carousel (WaveStep.rung rung name due source record now step).carousel :=
  WaveStep.rung_keeps (mark.Keeps step.carousel) (fun sections _ => keeps _ sections) (.refl mark _)

/-- What a rung carries was due. -/
theorem rung_due {rung : Rung} {name : String} {due : Carousel σ → Nat → Bool}
    {source : Option (SourceFn σ)} {record : Nat → Carousel σ → List Emission → Carousel σ}
    {now : Nat} {step : WaveStep σ}
    (succeeded : (WaveStep.rung rung name due source record now step).error = none)
    (carries : joined step (WaveStep.rung rung name due source record now step) ≠ []) :
    due step.carousel now = true := by
  rcases rung_cases succeeded with ⟨_, nothing⟩ | ⟨isDue, _⟩
  · exact absurd nothing carries
  · exact isDue

/-- The steps of a wave that was returned: each rung ran and none failed. -/
structure Steps (c : Carousel σ) (now : Nat) (world : σ) : Prop where
  clockFine : (c.afterClock now world).error = none
  lineup : c.afterLineup now world = WaveStep.lineupRung now (c.afterClock now world)
  lineupFine : (c.afterLineup now world).error = none
  titles : c.afterTitles now world = WaveStep.titlesRung now (c.afterLineup now world)
  titlesFine : (c.afterTitles now world).error = none
  events : c.afterEvents now world = WaveStep.eventsRung now (c.afterTitles now world)
  eventsFine : (c.afterEvents now world).error = none
  programmes : c.afterProgrammes now world =
    WaveStep.programmesRung now (c.afterEvents now world)
  programmesFine : (c.afterProgrammes now world).error = none
  index : c.wave now world = WaveStep.indexRung now (c.afterProgrammes now world)

theorem steps_of_returned {c : Carousel σ} {now : Nat} {world : σ}
    (returned : (c.wave now world).error = none) : Steps c now world := by
  obtain ⟨programmesFine, index⟩ := WaveStep.unlessFailed_error
    (show ((c.afterProgrammes now world).unlessFailed (WaveStep.indexRung now)).error = none
      from returned)
  obtain ⟨eventsFine, programmes⟩ := WaveStep.unlessFailed_error
    (show ((c.afterEvents now world).unlessFailed (WaveStep.programmesRung now)).error = none
      from programmesFine)
  obtain ⟨titlesFine, events⟩ := WaveStep.unlessFailed_error
    (show ((c.afterTitles now world).unlessFailed (WaveStep.eventsRung now)).error = none
      from eventsFine)
  obtain ⟨lineupFine, titles⟩ := WaveStep.unlessFailed_error
    (show ((c.afterLineup now world).unlessFailed (WaveStep.titlesRung now)).error = none
      from titlesFine)
  obtain ⟨clockFine, lineup⟩ := WaveStep.unlessFailed_error
    (show ((c.afterClock now world).unlessFailed (WaveStep.lineupRung now)).error = none
      from lineupFine)
  exact ⟨clockFine, lineup, lineupFine, titles, titlesFine, events, eventsFine, programmes,
    programmesFine, index⟩

/-- Behind the titles no mark changes any more. -/
theorem Steps.late {c : Carousel σ} {now : Nat} {world : σ} (steps : Steps c now world)
    (mark : Mark σ) (events : ∀ c sections, mark.Keeps c (recordEvents now c sections))
    (programmes : ∀ c sections, mark.Keeps c (recordProgrammes now c sections))
    (index : ∀ c sections, mark.Keeps c (recordIndex now c sections)) :
    mark.Keeps (c.afterTitles now world).carousel (c.wave now world).carousel := by
  have toEvents : mark.Keeps (c.afterTitles now world).carousel (c.afterEvents now world).carousel := by
    rw [steps.events]
    exact rung_mark_keeps events
  have toProgrammes : mark.Keeps (c.afterEvents now world).carousel
      (c.afterProgrammes now world).carousel := by
    rw [steps.programmes]
    exact rung_mark_keeps programmes
  have toIndex : mark.Keeps (c.afterProgrammes now world).carousel (c.wave now world).carousel := by
    rw [steps.index]
    exact rung_mark_keeps index
  exact (toEvents.trans toProgrammes).trans toIndex

theorem carried_of_returned {c : Carousel σ} {now : Nat} {world : σ}
    (returned : (c.wave now world).error = none) :
    c.carried now world .clock = (c.afterClock now world).wave ∧
      c.carried now world .lineup = joined (c.afterClock now world) (c.afterLineup now world) ∧
      c.carried now world .titles = joined (c.afterLineup now world) (c.afterTitles now world) ∧
      c.carried now world .events = joined (c.afterTitles now world) (c.afterEvents now world) ∧
      c.carried now world .programmes =
        joined (c.afterEvents now world) (c.afterProgrammes now world) ∧
      c.carried now world .index =
        joined (c.afterProgrammes now world) (c.wave now world) := by
  simp only [carried, returned, Option.isSome_none, Bool.false_eq_true, if_false, and_self]

theorem clockRung_sets {now : Nat} {step : WaveStep σ}
    (succeeded : (WaveStep.clockRung now step).error = none) :
    clockMark.Sets now (joined step (WaveStep.clockRung now step)) step.carousel
      (WaveStep.clockRung now step).carousel :=
  rung_sets (recordClock_sets now) succeeded

theorem lineupRung_sets {now : Nat} {step : WaveStep σ}
    (succeeded : (WaveStep.lineupRung now step).error = none) :
    lineupMark.Sets now (joined step (WaveStep.lineupRung now step)) step.carousel
      (WaveStep.lineupRung now step).carousel :=
  rung_sets (recordLineup_sets now) succeeded

theorem titlesRung_sets {now : Nat} {step : WaveStep σ}
    (succeeded : (WaveStep.titlesRung now step).error = none) :
    titlesMark.Sets now (joined step (WaveStep.titlesRung now step)) step.carousel
      (WaveStep.titlesRung now step).carousel :=
  rung_sets (recordTitles_sets now) succeeded

/-- From the step that asks about a mark on, it keeps its mark. -/
structure Settles (c : Carousel σ) (now : Nat) (world : σ) : Prop where
  clock : clockMark.Keeps (c.afterClock now world).carousel (c.wave now world).carousel
  lineup : lineupMark.Keeps (c.afterLineup now world).carousel (c.wave now world).carousel
  titles : lineupMark.Keeps (c.afterTitles now world).carousel (c.wave now world).carousel
  events : lineupMark.Keeps (c.afterEvents now world).carousel (c.wave now world).carousel
  programmes : titlesMark.Keeps (c.afterProgrammes now world).carousel (c.wave now world).carousel

theorem Steps.settles {c : Carousel σ} {now : Nat} {world : σ} (steps : Steps c now world) :
    Settles c now world := by
  have late := steps.late lineupMark (fun _ _ => ⟨rfl, rfl⟩) (fun _ _ => ⟨rfl, rfl⟩)
    fun _ _ => ⟨rfl, rfl⟩
  have lateClock := steps.late clockMark (fun _ _ => ⟨rfl, rfl⟩) (fun _ _ => ⟨rfl, rfl⟩)
    fun _ _ => ⟨rfl, rfl⟩
  have overLineup : clockMark.Keeps (c.afterClock now world).carousel
      (c.afterLineup now world).carousel := by
    rw [steps.lineup]
    exact rung_mark_keeps fun c sections => (recordLineup_keeps now c sections).1
  have overTitles : clockMark.Keeps (c.afterLineup now world).carousel
        (c.afterTitles now world).carousel ∧
      lineupMark.Keeps (c.afterLineup now world).carousel (c.afterTitles now world).carousel := by
    rw [steps.titles]
    exact ⟨rung_mark_keeps fun c sections => (recordTitles_keeps now c sections).1,
      rung_mark_keeps fun c sections => (recordTitles_keeps now c sections).2⟩
  have overProgrammes : lineupMark.Keeps (c.afterEvents now world).carousel
      (c.afterProgrammes now world).carousel := by
    rw [steps.programmes]
    exact rung_mark_keeps fun _ _ => ⟨rfl, rfl⟩
  have overIndex : lineupMark.Keeps (c.afterProgrammes now world).carousel
        (c.wave now world).carousel ∧
      titlesMark.Keeps (c.afterProgrammes now world).carousel (c.wave now world).carousel := by
    rw [steps.index]
    exact ⟨rung_mark_keeps fun _ _ => ⟨rfl, rfl⟩, rung_mark_keeps fun _ _ => ⟨rfl, rfl⟩⟩
  exact ⟨(overLineup.trans overTitles.1).trans lateClock, overTitles.2.trans late, late,
    overProgrammes.trans overIndex.1, overIndex.2⟩

/-- The timing a wave goes by is the carousel's. -/
theorem Steps.schedule {c : Carousel σ} {now : Nat} {world : σ} (steps : Steps c now world) :
    (c.afterClock now world).carousel.schedule = c.schedule ∧
      (c.afterLineup now world).carousel.schedule = c.schedule ∧
      (c.afterTitles now world).carousel.schedule = c.schedule ∧
      (c.afterEvents now world).carousel.schedule = c.schedule ∧
      (c.afterProgrammes now world).carousel.schedule = c.schedule ∧
      (c.wave now world).carousel.schedule = c.schedule := by
  have clock : (c.afterClock now world).carousel.schedule = c.schedule :=
    (WaveStep.clockRung_setup now { carousel := c.start now, world }).schedule.trans
      (c.start_schedule now)
  have lineup : (c.afterLineup now world).carousel.schedule = c.schedule := by
    rw [steps.lineup, (WaveStep.lineupRung_setup now _).schedule, clock]
  have titles : (c.afterTitles now world).carousel.schedule = c.schedule := by
    rw [steps.titles, (WaveStep.titlesRung_setup now _).schedule, lineup]
  have events : (c.afterEvents now world).carousel.schedule = c.schedule := by
    rw [steps.events, (WaveStep.eventsRung_setup now _).schedule, titles]
  have programmes : (c.afterProgrammes now world).carousel.schedule = c.schedule := by
    rw [steps.programmes, (WaveStep.programmesRung_setup now _).schedule, events]
  have index : (c.wave now world).carousel.schedule = c.schedule := by
    rw [steps.index, (WaveStep.indexRung_setup now _).schedule, programmes]
  exact ⟨clock, lineup, titles, events, programmes, index⟩

/-- The marks over a wave that was returned. -/
structure Climb (c : Carousel σ) (now : Nat) (world : σ) : Prop where
  clock : clockMark.Sets now (c.carried now world .clock) c (c.wave now world).carousel
  lineup : lineupMark.Sets now (c.carried now world .lineup) c (c.wave now world).carousel
  titles : titlesMark.Sets now (c.carried now world .titles) c (c.wave now world).carousel

theorem Steps.climb {c : Carousel σ} {now : Nat} {world : σ} (steps : Steps c now world)
    (returned : (c.wave now world).error = none) : Climb c now world := by
  obtain ⟨clockCarried, lineupCarried, titlesCarried, -⟩ := carried_of_returned returned
  have started := c.start_keeps now
  have lateClock := steps.late clockMark (fun _ _ => ⟨rfl, rfl⟩) (fun _ _ => ⟨rfl, rfl⟩)
    fun _ _ => ⟨rfl, rfl⟩
  have lateLineup := steps.late lineupMark (fun _ _ => ⟨rfl, rfl⟩) (fun _ _ => ⟨rfl, rfl⟩)
    fun _ _ => ⟨rfl, rfl⟩
  have lateTitles := steps.late titlesMark (fun _ _ => ⟨rfl, rfl⟩) (fun _ _ => ⟨rfl, rfl⟩)
    fun _ _ => ⟨rfl, rfl⟩
  have lineupKeeps : clockMark.Keeps (c.afterClock now world).carousel
        (c.afterLineup now world).carousel ∧
      titlesMark.Keeps (c.afterClock now world).carousel (c.afterLineup now world).carousel := by
    rw [steps.lineup]
    exact ⟨rung_mark_keeps fun c sections => (recordLineup_keeps now c sections).1,
      rung_mark_keeps fun c sections => (recordLineup_keeps now c sections).2⟩
  have titlesKeeps : clockMark.Keeps (c.afterLineup now world).carousel
        (c.afterTitles now world).carousel ∧
      lineupMark.Keeps (c.afterLineup now world).carousel (c.afterTitles now world).carousel := by
    rw [steps.titles]
    exact ⟨rung_mark_keeps fun c sections => (recordTitles_keeps now c sections).1,
      rung_mark_keeps fun c sections => (recordTitles_keeps now c sections).2⟩
  have clockKeeps : lineupMark.Keeps (c.start now) (c.afterClock now world).carousel ∧
      titlesMark.Keeps (c.start now) (c.afterClock now world).carousel :=
    ⟨rung_mark_keeps fun c sections => (recordClock_keeps now c sections).1,
      rung_mark_keeps fun c sections => (recordClock_keeps now c sections).2⟩
  refine ⟨?_, ?_, ?_⟩
  · rw [clockCarried]
    have sets : clockMark.Sets now (joined { carousel := c.start now, world }
        (c.afterClock now world)) (c.start now) (c.afterClock now world).carousel :=
      clockRung_sets steps.clockFine
    exact sets.keeps started.1 ((lineupKeeps.1.trans titlesKeeps.1).trans lateClock)
  · have fine := steps.lineupFine
    rw [steps.lineup] at fine
    have sets := lineupRung_sets fine
    rw [← steps.lineup, ← lineupCarried] at sets
    exact sets.keeps (started.2.1.trans clockKeeps.1) (titlesKeeps.2.trans lateLineup)
  · have fine := steps.titlesFine
    rw [steps.titles] at fine
    have sets := titlesRung_sets fine
    rw [← steps.titles, ← titlesCarried] at sets
    exact sets.keeps ((started.2.2.trans clockKeeps.2).trans lineupKeeps.2) lateTitles

/-- A mark that has settled at some step of a wave has been released. -/
theorem Mark.Backed.released_at {mark : Mark σ} {rung : Rung} {log : List OnAir}
    {step final : Carousel σ} {now : Nat} {schedule : Schedule} (backed : mark.Backed rung log final)
    (keeps : mark.Keeps step final) (stepTiming : step.schedule = schedule)
    (finalTiming : final.schedule = schedule) (sent : mark.sent step = true)
    (settled : wrapAdd (mark.first step) (mark.settle step.schedule) ≤ now) :
    Released log rung (mark.settle schedule) now := by
  rw [← finalTiming]
  refine backed.released (keeps.1.trans sent) ?_
  rw [keeps.2, finalTiming, ← stepTiming]
  exact settled

/-- Every mark goes back to a wave that was returned. -/
structure Air.Backed (a : Air σ) : Prop where
  clock : clockMark.Backed .clock a.log a.carousel
  lineup : lineupMark.Backed .lineup a.log a.carousel
  titles : titlesMark.Backed .titles a.log a.carousel

theorem lineupSettled_iff {c : Carousel σ} {now : Nat} :
    c.lineupSettled now = true ↔
      c.sentLineup = true ∧ wrapAdd c.lineupAt c.schedule.lineupSettle ≤ now := by
  rw [lineupSettled, Bool.and_eq_true, decide_eq_true_eq]

namespace Air

theorem perform_of_returned {a : Air σ} {call : WaveCall σ} (returned : (a.wave call).error = none) :
    (a.perform call).log =
      a.log ++ [{ now := call.now, carried := a.carousel.carried call.now call.world }] := by
  simp [perform, returned]

theorem Backed.perform_of_returned {a : Air σ} {call : WaveCall σ} (backed : a.Backed)
    (guard : a.FailsFirst call) (returned : (a.wave call).error = none) :
    (a.perform call).Backed := by
  have steps := steps_of_returned returned
  have climb := steps.climb returned
  have timing := steps.schedule.2.2.2.2.2
  refine ⟨?_, ?_, ?_⟩
  · rw [Air.perform_of_returned returned]
    exact backed.clock.wave timing guard.clock climb.clock
  · rw [Air.perform_of_returned returned]
    exact backed.lineup.wave timing guard.lineup climb.lineup
  · rw [Air.perform_of_returned returned]
    exact backed.titles.wave timing guard.titles climb.titles

/-- What a returned wave carries has been released. -/
theorem Backed.ordered {a : Air σ} {call : WaveCall σ} (after : (a.perform call).Backed)
    (returned : (a.wave call).error = none) :
    Ordered a.carousel.schedule (a.perform call).log call.now
      (a.carousel.carried call.now call.world) := by
  have steps := steps_of_returned returned
  have settles := steps.settles
  obtain ⟨clockTiming, lineupTiming, titlesTiming, eventsTiming, programmesTiming, timing⟩ :=
    steps.schedule
  obtain ⟨-, lineupCarried, titlesCarried, eventsCarried, programmesCarried, indexCarried⟩ :=
    carried_of_returned returned
  refine ⟨fun carries => ?_, fun carries => ?_, fun carries => ?_, fun carries => ?_,
    fun carries => ?_⟩
  · have fine := steps.lineupFine
    rw [steps.lineup] at fine
    rw [lineupCarried, steps.lineup] at carries
    have due := rung_due fine carries
    simp only [lineupDue, Bool.and_eq_true, decide_eq_true_eq] at due
    exact after.clock.released_at settles.clock clockTiming timing due.1.1 due.1.2
  · have fine := steps.titlesFine
    rw [steps.titles] at fine
    rw [titlesCarried, steps.titles] at carries
    have due := rung_due fine carries
    simp only [titlesDue, Bool.and_eq_true, lineupSettled_iff] at due
    exact after.lineup.released_at settles.lineup lineupTiming timing due.1.1 due.1.2
  · have fine := steps.eventsFine
    rw [steps.events] at fine
    rw [eventsCarried, steps.events] at carries
    have due := rung_due fine carries
    simp only [eventsDue, Bool.and_eq_true, lineupSettled_iff] at due
    exact after.lineup.released_at settles.titles titlesTiming timing due.1.1 due.1.2
  · have fine := steps.programmesFine
    rw [steps.programmes] at fine
    rw [programmesCarried, steps.programmes] at carries
    have due := rung_due fine carries
    simp only [programmesDue, Bool.and_eq_true, lineupSettled_iff] at due
    exact after.lineup.released_at settles.events eventsTiming timing due.1.1 due.1.2
  · have fine : (WaveStep.indexRung call.now
        (a.carousel.afterProgrammes call.now call.world)).error = none := by
      rw [← steps.index]
      exact returned
    rw [indexCarried, steps.index] at carries
    have due := rung_due fine carries
    simp only [indexDue, Bool.and_eq_true, decide_eq_true_eq] at due
    exact after.titles.released_at settles.programmes programmesTiming timing due.1.1 due.1.2

end Air

/-- Nothing has been recorded while no source has answered, and a source that
fails records nothing. -/
structure Unrecorded (c : Carousel σ) (step : WaveStep σ) : Prop where
  quiet : step.calls = [] → step.carousel = c ∧ step.error = none
  failed : step.error.isSome = true → step.calls.length ≤ 1 → step.carousel = c

theorem Unrecorded.rung {c : Carousel σ} {step : WaveStep σ} (unrecorded : Unrecorded c step)
    {rung : Rung} {name : String} {due : Carousel σ → Nat → Bool} {source : Option (SourceFn σ)}
    {record : Nat → Carousel σ → List Emission → Carousel σ} {now : Nat}
    (running : step.error = none) :
    Unrecorded c (WaveStep.rung rung name due source record now step) := by
  cases source with
  | none => exact unrecorded
  | some source =>
    unfold WaveStep.rung
    dsimp only
    split
    next =>
      unfold WaveStep.callSource
      split
      next =>
        refine ⟨fun none_ => ?_, fun _ alone => ?_⟩
        · simp at none_
        · rw [List.length_append, List.length_singleton] at alone
          exact (unrecorded.quiet (List.eq_nil_of_length_eq_zero (by omega))).1
      next =>
        refine ⟨fun none_ => ?_, fun failed _ => ?_⟩
        · simp at none_
        · simp [running] at failed
    next => exact unrecorded

theorem Unrecorded.unlessFailed {c : Carousel σ} {step : WaveStep σ}
    (unrecorded : Unrecorded c step) {next : WaveStep σ → WaveStep σ}
    (kept : step.error = none → Unrecorded c (next step)) :
    Unrecorded c (step.unlessFailed next) := by
  unfold WaveStep.unlessFailed
  split
  · exact unrecorded
  next running => exact kept (by simpa using running)

theorem unrecorded_wave (c : Carousel σ) (now : Nat) (world : σ) :
    Unrecorded (c.start now) (c.wave now world) := by
  have start : Unrecorded (c.start now) { carousel := c.start now, world } :=
    ⟨fun _ => ⟨rfl, rfl⟩, fun failed => by cases failed⟩
  have clock : Unrecorded (c.start now) (c.afterClock now world) := start.rung rfl
  have lineup : Unrecorded (c.start now) (c.afterLineup now world) := clock.unlessFailed clock.rung
  have titles : Unrecorded (c.start now) (c.afterTitles now world) := lineup.unlessFailed lineup.rung
  have events : Unrecorded (c.start now) (c.afterEvents now world) := titles.unlessFailed titles.rung
  have programmes : Unrecorded (c.start now) (c.afterProgrammes now world) :=
    events.unlessFailed events.rung
  exact programmes.unlessFailed programmes.rung

namespace Air

/-- A wave whose first source fails leaves the carousel as it was started. -/
theorem perform_of_failed {a : Air σ} {call : WaveCall σ} (guard : a.FailsFirst call)
    (failed : (a.wave call).error.isSome = true) :
    (a.perform call).carousel = a.carousel.start call.now ∧ (a.perform call).log = a.log :=
  ⟨(unrecorded_wave a.carousel call.now call.world).failed failed (guard.first failed),
    if_pos failed⟩

theorem Backed.perform {a : Air σ} {call : WaveCall σ} (backed : a.Backed)
    (guard : a.FailsFirst call) : (a.perform call).Backed := by
  cases failed : (a.wave call).error with
  | none => exact backed.perform_of_returned guard failed
  | some error =>
    obtain ⟨sameCarousel, sameLog⟩ := perform_of_failed guard (by rw [failed]; rfl)
    have keeps := a.carousel.start_keeps call.now
    refine ⟨?_, ?_, ?_⟩
    · rw [sameCarousel, sameLog, Mark.Backed, keeps.1.1, keeps.1.2, start_schedule]
      exact backed.clock
    · rw [sameCarousel, sameLog, Mark.Backed, keeps.2.1.1, keeps.2.1.2, start_schedule]
      exact backed.lineup
    · rw [sameCarousel, sameLog, Mark.Backed, keeps.2.2.1, keeps.2.2.2, start_schedule]
      exact backed.titles

instance (a : Air σ) (call : WaveCall σ) : Decidable (a.FailsFirst call) :=
  decidable_of_iff
    (((a.wave call).error.isSome = true → (a.wave call).calls.length ≤ 1) ∧
      (a.carousel.sentClock = false →
        call.now + a.carousel.schedule.clockSettle < countLimit) ∧
      (a.carousel.sentLineup = false →
        call.now + a.carousel.schedule.lineupSettle < countLimit) ∧
      (a.carousel.sentTitles = false →
        call.now + a.carousel.schedule.titleSettle < countLimit))
    ⟨fun ⟨first, clock, lineup, titles⟩ => ⟨first, clock, lineup, titles⟩,
      fun guard => ⟨guard.first, guard.clock, guard.lineup, guard.titles⟩⟩

end Air

end Carousel

end GoRetroTv
