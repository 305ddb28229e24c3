import GoRetroTv.BroadcastCarouselWake

/-!
# Driving the carousel from its own bound

`Multiplex.Pump` runs after every instruction and leaves the carousel alone
while the count is below `NextDue`.  This file compares that driver with one
that calls `wave` at every instruction.  Between two instructions the rest of
the machine may change the sources' state, and may do so according to what has
been transmitted.
-/

namespace GoRetroTv

variable {σ : Type}

namespace Carousel

/-- The carousels a driver can come to hold: a new one, and one on which `wave`
has been called at any count and with the sources in any state. -/
inductive Reachable (schedule : Schedule) (source : Source σ) : Carousel σ → Prop where
  | new {c : Carousel σ} (isNew : newCarousel schedule source = .ok c) :
      Reachable schedule source c
  | wave {c : Carousel σ} (before : Reachable schedule source c) (now : Nat) (world : σ) :
      Reachable schedule source (c.wave now world).carousel

/-- Before the bound a wave calls no source and emits nothing. -/
def WakeBoundSound (c : Carousel σ) : Prop :=
  ∀ now world, now < c.nextDue →
    (c.wave now world).calls = [] ∧ (c.wave now world).wave = []

/-- The instruction at which a released event rung becomes due. -/
def eventsWake (c : Carousel σ) : Nat :=
  max c.nextEvents (wrapAdd c.lineupAt c.schedule.lineupSettle)

/-- When the event rung becomes due, so is one of the rungs the bound
considers. -/
def EventsCovered (c : Carousel σ) : Prop :=
  c.started = true → c.source.events.isSome → c.sentLineup = true → ¬ c.Quiet c.eventsWake

instance (c : Carousel σ) : Decidable c.EventsCovered :=
  inferInstanceAs (Decidable
    (c.started = true → c.source.events.isSome → c.sentLineup = true → ¬ c.Quiet c.eventsWake))

theorem clockDue_later {c : Carousel σ} {now later : Nat} (le : now ≤ later)
    (due : c.clockDue now = true) :
    c.clockDue later = true := by
  simp only [clockDue, decide_eq_true_eq] at due ⊢
  omega

theorem lineupDue_later {c : Carousel σ} {now later : Nat} (le : now ≤ later)
    (due : c.lineupDue now = true) :
    c.lineupDue later = true := by
  simp only [lineupDue, Bool.and_eq_true, decide_eq_true_eq] at due ⊢
  exact ⟨⟨due.1.1, due.1.2.trans le⟩, due.2.trans le⟩

theorem titlesDue_later {c : Carousel σ} {now later : Nat} (le : now ≤ later)
    (due : c.titlesDue now = true) :
    c.titlesDue later = true := by
  simp only [titlesDue, lineupSettled, Bool.and_eq_true, decide_eq_true_eq] at due ⊢
  exact ⟨⟨due.1.1, due.1.2.trans le⟩, due.2.trans le⟩

theorem programmesDue_later {c : Carousel σ} {now later : Nat} (le : now ≤ later)
    (due : c.programmesDue now = true) :
    c.programmesDue later = true := by
  simp only [programmesDue, lineupSettled, Bool.and_eq_true, decide_eq_true_eq] at due ⊢
  exact ⟨⟨due.1.1, due.1.2.trans le⟩, due.2.trans le⟩

theorem indexDue_later {c : Carousel σ} {now later : Nat} (le : now ≤ later)
    (due : c.indexDue now = true) :
    c.indexDue later = true := by
  simp only [indexDue, Bool.and_eq_true, decide_eq_true_eq] at due ⊢
  exact ⟨⟨due.1.1, due.1.2.trans le⟩, due.2.trans le⟩

/-- Once due, a rung stays due until it is called. -/
theorem Quiet.earlier {c : Carousel σ} {now later : Nat} (quiet : c.Quiet later)
    (le : now ≤ later) :
    c.Quiet now where
  clock := Bool.eq_false_iff.mpr fun due =>
    Bool.eq_false_iff.mp quiet.clock (clockDue_later le due)
  lineup := Bool.eq_false_iff.mpr fun due =>
    Bool.eq_false_iff.mp quiet.lineup (lineupDue_later le due)
  titles := Bool.eq_false_iff.mpr fun due =>
    Bool.eq_false_iff.mp quiet.titles (titlesDue_later le due)
  programmes := fun isSome => Bool.eq_false_iff.mpr fun due =>
    Bool.eq_false_iff.mp (quiet.programmes isSome) (programmesDue_later le due)
  index := fun isSome => Bool.eq_false_iff.mpr fun due =>
    Bool.eq_false_iff.mp (quiet.index isSome) (indexDue_later le due)

theorem eventsDue_iff {c : Carousel σ} {now : Nat} :
    c.eventsDue now = true ↔ c.sentLineup = true ∧ c.eventsWake ≤ now := by
  simp only [eventsDue, lineupSettled, eventsWake, Bool.and_eq_true, decide_eq_true_eq, sup_le_iff]
  tauto

/-- Where the events are covered, a quiet ladder means quiet events. -/
theorem EventsCovered.eventsQuiet {c : Carousel σ} (covered : c.EventsCovered)
    (started : c.started = true) {now : Nat} (quiet : c.Quiet now) :
    c.EventsQuiet now := by
  intro isSome
  by_contra due
  obtain ⟨sent, wake⟩ := eventsDue_iff.mp (Bool.not_eq_false _ ▸ due)
  exact covered started isSome sent (quiet.earlier wake)

theorem started_of_lt_nextDue {c : Carousel σ} {now : Nat} (early : now < c.nextDue) :
    c.started = true := by
  by_contra notStarted
  rw [Bool.not_eq_true] at notStarted
  simp [nextDue, notStarted] at early

/-- Before the bound, a wave of a carousel whose events are covered changes
nothing at all. -/
theorem EventsCovered.wave_of_early {c : Carousel σ} (covered : c.EventsCovered) {now : Nat}
    (early : now < c.nextDue) (world : σ) :
    c.wave now world = { carousel := c, world } := by
  have started := started_of_lt_nextDue early
  have quiet := (lt_nextDue_iff started now).mp early
  exact wave_of_quiet started quiet (covered.eventsQuiet started quiet) world

/-- The bound is sound in exactly the states whose events are covered. -/
theorem wakeBoundSound_iff (c : Carousel σ) (world : σ) :
    c.WakeBoundSound ↔ c.EventsCovered := by
  constructor
  · intro sound started isSome sent quiet
    have early := (lt_nextDue_iff started _).mpr quiet
    have called := events_mem_wave_calls started quiet isSome
      (eventsDue_iff.mpr ⟨sent, le_rfl⟩) world
    rw [(sound _ world early).1] at called
    cases called
  · intro covered now world early
    simp [covered.wave_of_early early world]

end Carousel

/-- A driver's carousel, the sources' state, and the record of what it has
done: the calls and the sections with the counts they happened at, and the
error that stopped it. -/
structure Drive (σ : Type) where
  carousel : Carousel σ
  world : σ
  calls : List (Nat × Rung) := []
  sent : List (Nat × Emission) := []
  failed : Option String := none

namespace Drive

/-- What the rest of the machine does to the sources' state before the wave at
a count, knowing what has been transmitted. -/
abbrev Environment (σ : Type) := Nat → List (Nat × Emission) → σ → σ

/-- Call `wave` and record what it does. -/
def callWave (now : Nat) (d : Drive σ) : Drive σ :=
  let step := d.carousel.wave now d.world
  { carousel := step.carousel
    world := step.world
    calls := d.calls ++ step.calls.map (now, ·)
    sent := d.sent ++ (step.result.toOption.getD []).map (now, ·)
    failed := step.error }

/-- The driver that polls at every count. -/
def poll (now : Nat) (d : Drive σ) : Drive σ :=
  if d.failed.isSome then d else d.callWave now

/-- The driver of `Pump`, which returns at once while the bound lies ahead. -/
def pump (now : Nat) (d : Drive σ) : Drive σ :=
  if d.failed.isSome then d
  else if now < d.carousel.nextDue then d
  else d.callWave now

/-- One driver over a list of counts, the environment acting before each. -/
def run (driver : Nat → Drive σ → Drive σ) (environment : Environment σ) :
    List Nat → Drive σ → Drive σ
  | [], d => d
  | now :: instants, d =>
      run driver environment instants
        (driver now { d with world := environment now d.sent d.world })

theorem callWave_of_early {d : Drive σ} {now : Nat} (covered : d.carousel.EventsCovered)
    (running : d.failed = none) (early : now < d.carousel.nextDue) :
    d.callWave now = d := by
  obtain ⟨carousel, world, calls, sent, failed⟩ := d
  simp only at covered running early
  simp [callWave, covered.wave_of_early early world, WaveStep.result, running, Except.toOption]

/-- One instruction: with the events covered the two drivers do the same. -/
theorem pump_eq_poll {d : Drive σ} (covered : d.carousel.EventsCovered) (now : Nat) :
    d.pump now = d.poll now := by
  unfold pump poll
  split
  · rfl
  next running =>
    split
    next early =>
      exact (callWave_of_early covered (by simpa using running) early).symm
    next => rfl

/-- The events are covered before every wave of a polled run. -/
def CoveredRun (environment : Environment σ) : List Nat → Drive σ → Prop
  | [], _ => True
  | now :: instants, d =>
      d.carousel.EventsCovered ∧
        CoveredRun environment instants
          (poll now { d with world := environment now d.sent d.world })

theorem run_pump_eq_run_poll {environment : Environment σ} {instants : List Nat} {d : Drive σ}
    (covered : CoveredRun environment instants d) :
    run pump environment instants d = run poll environment instants d := by
  induction instants generalizing d with
  | nil => rfl
  | cons now instants ih =>
      obtain ⟨here, later⟩ := covered
      simp only [run]
      rw [pump_eq_poll (show ({ d with world := environment now d.sent d.world } : Drive σ).carousel.EventsCovered
        from here)]
      exact ih later

end Drive

namespace Carousel

/-- The wake-up bound over every run.  In a reachable state it is sound exactly
when the events are covered; a wave that succeeds moves it past the count; and
a run whose states are all covered is the same, call for call and section for
section, whether the driver polls or waits for the bound. -/
theorem nextDue_sound {schedule : Schedule} {source : Source σ} {c : Carousel σ}
    (_ : Reachable schedule source c) (world : σ) :
    (c.WakeBoundSound ↔ c.EventsCovered) ∧
      (∀ now, c.CountsFit now → (c.wave now world).error = none →
        now < (c.wave now world).carousel.nextDue) ∧
      ∀ environment instants,
        Drive.CoveredRun environment instants { carousel := c, world } →
          Drive.run Drive.pump environment instants { carousel := c, world } =
            Drive.run Drive.poll environment instants { carousel := c, world } :=
  ⟨wakeBoundSound_iff c world, fun _ fits succeeded => lt_nextDue_wave fits succeeded,
    fun _ _ covered => Drive.run_pump_eq_run_poll covered⟩

/-- A timetable on which only the events have a period of their own. -/
def eventTimetable (eventPeriod : Nat) : Schedule where
  clockPeriod := 1000
  lineupPeriod := 1000
  titlePeriod := 1000
  eventPeriod := eventPeriod

/-- A source function that supplies one section. -/
def oneSection (pid : Half) : SourceFn Unit :=
  fun _ world => (.ok [{ pid, section_ := [0x70] }], world)

def eventSource : Source Unit where
  clock := some (oneSection 0x14)
  lineup := some (oneSection 0x10)
  titles := some (oneSection 0x30)
  events := some (oneSection 0x12)

def eventCarousel (eventPeriod : Nat) (positive : 0 < eventPeriod) : Carousel Unit where
  schedule := eventTimetable eventPeriod
  source := eventSource
  accepted := by constructor <;> simp [eventTimetable, eventSource, positive]

/-- With events every 10 and everything else every 1000, the first wave leaves
the bound at 1000, and a wave at 10 calls the event source and emits its
section. -/
theorem eventTimetable_before_nextDue :
    newCarousel (eventTimetable 10) eventSource = .ok (eventCarousel 10 (by decide)) ∧
      ((eventCarousel 10 (by decide)).wave 0 ()).error = none ∧
      10 < ((eventCarousel 10 (by decide)).wave 0 ()).carousel.nextDue ∧
      (((eventCarousel 10 (by decide)).wave 0 ()).carousel.wave 10 ()).calls = [.events] ∧
      (((eventCarousel 10 (by decide)).wave 0 ()).carousel.wave 10 ()).wave =
        [{ pid := 0x12, section_ := [0x70] }] :=
  ⟨rfl, by decide, by decide, by decide, by decide⟩

/-- With events every 2000 the bound covers them: it is sound at the start, a
wave moves it on, and polling and waiting agree. -/
theorem eventTimetable_nextDue_sound :
    (eventCarousel 2000 (by decide)).WakeBoundSound ∧
      0 < ((eventCarousel 2000 (by decide)).wave 0 ()).carousel.nextDue ∧
      Drive.run Drive.pump (fun _ _ world => world) [0, 1, 1000, 2000]
          { carousel := eventCarousel 2000 (by decide), world := () } =
        Drive.run Drive.poll (fun _ _ world => world) [0, 1, 1000, 2000]
          { carousel := eventCarousel 2000 (by decide), world := () } :=
  have reachable : Reachable (eventTimetable 2000) eventSource (eventCarousel 2000 (by decide)) :=
    .new rfl
  have sound := nextDue_sound reachable ()
  have fits : (eventCarousel 2000 (by decide)).CountsFit 0 := by
    constructor <;> decide
  have covered :
      Drive.CoveredRun (fun _ _ world => world) [0, 1, 1000, 2000]
        { carousel := eventCarousel 2000 (by decide), world := () } :=
    ⟨by decide, by decide, by decide, by decide, trivial⟩
  ⟨sound.1.mpr (by decide), sound.2.1 0 fits (by decide), sound.2.2 _ _ covered⟩

end Carousel

end GoRetroTv
