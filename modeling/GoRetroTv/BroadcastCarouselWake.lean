import GoRetroTv.BroadcastCarousel
import Mathlib.Tactic.Common

/-!
# When the carousel has to be woken

`NextDue` is the instruction before which a driver leaves the carousel alone.
This file relates that bound to the conditions under which `wave` calls each
source, and compares a driver that calls `wave` at every instruction with one
that, like `Multiplex.Pump`, first looks at the bound.  The event rung takes no
part in the bound, so the two agree exactly when another rung is due no later
than the events are.
-/

namespace GoRetroTv

variable {σ : Type}

namespace Carousel

/-- Sums of a count and the periods a wave can add to it stay below `2 ^ 64`. -/
structure CountsFit (c : Carousel σ) (now : Nat) : Prop where
  clock : now + c.schedule.clockPeriod < countLimit
  lineup : now + c.schedule.lineupPeriod < countLimit
  titles : now + c.schedule.titlePeriod < countLimit
  programmes : c.source.programmes.isSome → now + c.schedule.programmePeriod < countLimit
  index : c.source.index.isSome → now + c.schedule.indexPeriod < countLimit

@[simp]
theorem start_of_started {c : Carousel σ} (started : c.started = true) (now : Nat) :
    c.start now = c := by
  simp [start, started]

@[simp]
theorem start_source (c : Carousel σ) (now : Nat) :
    (c.start now).source = c.source := by
  unfold start
  split <;> rfl

@[simp]
theorem start_schedule (c : Carousel σ) (now : Nat) :
    (c.start now).schedule = c.schedule := by
  unfold start
  split <;> rfl

@[simp]
theorem start_started (c : Carousel σ) (now : Nat) :
    (c.start now).started = true := by
  unfold start
  split <;> simp_all

/-- What every rung's record keeps: the timing, the sources, and that the
carousel has started. -/
structure SameSetup (before after : Carousel σ) : Prop where
  schedule : after.schedule = before.schedule
  source : after.source = before.source
  started : after.started = before.started

namespace SameSetup

theorem refl (c : Carousel σ) : SameSetup c c :=
  ⟨rfl, rfl, rfl⟩

theorem trans {first second third : Carousel σ}
    (before : SameSetup first second) (after : SameSetup second third) :
    SameSetup first third :=
  ⟨after.schedule.trans before.schedule, after.source.trans before.source,
    after.started.trans before.started⟩

end SameSetup

theorem recordClock_setup (now : Nat) (c : Carousel σ) (sections : List Emission) :
    SameSetup c (recordClock now c sections) := by
  simp only [recordClock]
  split <;> exact ⟨rfl, rfl, rfl⟩

theorem recordLineup_setup (now : Nat) (c : Carousel σ) (sections : List Emission) :
    SameSetup c (recordLineup now c sections) := by
  simp only [recordLineup]
  split <;> exact ⟨rfl, rfl, rfl⟩

theorem recordTitles_setup (now : Nat) (c : Carousel σ) (sections : List Emission) :
    SameSetup c (recordTitles now c sections) := by
  simp only [recordTitles]
  split <;> exact ⟨rfl, rfl, rfl⟩

theorem recordEvents_setup (now : Nat) (c : Carousel σ) (sections : List Emission) :
    SameSetup c (recordEvents now c sections) :=
  ⟨rfl, rfl, rfl⟩

theorem recordProgrammes_setup (now : Nat) (c : Carousel σ) (sections : List Emission) :
    SameSetup c (recordProgrammes now c sections) :=
  ⟨rfl, rfl, rfl⟩

theorem recordIndex_setup (now : Nat) (c : Carousel σ) (sections : List Emission) :
    SameSetup c (recordIndex now c sections) :=
  ⟨rfl, rfl, rfl⟩

theorem recordClock_clockDue {now : Nat} {c : Carousel σ} (fits : c.CountsFit now)
    (sections : List Emission) :
    (recordClock now c sections).clockDue now = false := by
  have later := lt_wrapAdd c.accepted.clockPeriod_pos fits.clock
  simp only [recordClock]
  split <;> simpa [clockDue] using later

theorem recordLineup_lineupDue {now : Nat} {c : Carousel σ} (fits : c.CountsFit now)
    (sections : List Emission) :
    (recordLineup now c sections).lineupDue now = false := by
  have later := lt_wrapAdd c.accepted.lineupPeriod_pos fits.lineup
  simp only [recordLineup]
  split <;> simp [lineupDue, later]

theorem recordTitles_titlesDue {now : Nat} {c : Carousel σ} (fits : c.CountsFit now)
    (sections : List Emission) :
    (recordTitles now c sections).titlesDue now = false := by
  have later := lt_wrapAdd c.accepted.titlePeriod_pos fits.titles
  simp only [recordTitles]
  split <;> simp [titlesDue, later]

theorem recordProgrammes_programmesDue {now : Nat} {c : Carousel σ} (fits : c.CountsFit now)
    (isSome : c.source.programmes.isSome) (sections : List Emission) :
    (recordProgrammes now c sections).programmesDue now = false := by
  have later := lt_wrapAdd (c.accepted.programmePeriod_pos isSome) (fits.programmes isSome)
  change (_ && decide (wrapAdd now c.schedule.programmePeriod ≤ now)) = false
  simp [later]

theorem recordIndex_indexDue {now : Nat} {c : Carousel σ} (fits : c.CountsFit now)
    (isSome : c.source.index.isSome) (sections : List Emission) :
    (recordIndex now c sections).indexDue now = false := by
  have later := lt_wrapAdd (c.accepted.indexPeriod_pos isSome) (fits.index isSome)
  change (_ && decide (wrapAdd now c.schedule.indexPeriod ≤ now)) = false
  simp [later]

theorem recordLineup_clockDue (now : Nat) (c : Carousel σ) (sections : List Emission) :
    (recordLineup now c sections).clockDue now = c.clockDue now := by
  simp only [recordLineup]
  split <;> rfl

theorem recordTitles_clockDue (now : Nat) (c : Carousel σ) (sections : List Emission) :
    (recordTitles now c sections).clockDue now = c.clockDue now := by
  simp only [recordTitles]
  split <;> rfl

theorem recordTitles_lineupDue (now : Nat) (c : Carousel σ) (sections : List Emission) :
    (recordTitles now c sections).lineupDue now = c.lineupDue now := by
  simp only [recordTitles]
  split <;> rfl

/-- The rungs the bound considers, none of them due. -/
structure Quiet (c : Carousel σ) (now : Nat) : Prop where
  clock : c.clockDue now = false
  lineup : c.lineupDue now = false
  titles : c.titlesDue now = false
  programmes : c.source.programmes.isSome → c.programmesDue now = false
  index : c.source.index.isSome → c.indexDue now = false

@[simp]
theorem lt_lowerDue {now next hold due : Nat} {released : Bool} :
    now < lowerDue released next hold due ↔
      now < due ∧ (released = true → now < max next hold) := by
  cases released <;> simp [lowerDue]

instance (c : Carousel σ) (now : Nat) : Decidable (c.Quiet now) :=
  decidable_of_iff
    (c.clockDue now = false ∧ c.lineupDue now = false ∧ c.titlesDue now = false ∧
      (c.source.programmes.isSome → c.programmesDue now = false) ∧
      (c.source.index.isSome → c.indexDue now = false))
    ⟨fun ⟨clock, lineup, titles, programmes, index⟩ =>
        ⟨clock, lineup, titles, programmes, index⟩,
      fun ⟨clock, lineup, titles, programmes, index⟩ =>
        ⟨clock, lineup, titles, programmes, index⟩⟩

theorem lt_nextDue_iff {c : Carousel σ} (started : c.started = true) (now : Nat) :
    now < c.nextDue ↔ c.Quiet now := by
  constructor
  · intro early
    simp only [nextDue, started, Bool.not_true, Bool.false_eq_true, if_false, lt_lowerDue,
      Bool.and_eq_true, lt_max_iff] at early
    obtain ⟨⟨⟨⟨clock, lineup⟩, titles⟩, index⟩, programmes⟩ := early
    exact {
      clock := by simpa [clockDue] using clock
      lineup := by
        cases sent : c.sentClock with
        | false => simp [lineupDue, sent]
        | true =>
            have := lineup sent
            simp only [lineupDue, sent, Bool.true_and, Bool.and_eq_false_iff, decide_eq_false_iff_not]
            omega
      titles := by
        cases sent : c.sentLineup with
        | false => simp [titlesDue, lineupSettled, sent]
        | true =>
            have := titles sent
            simp only [titlesDue, lineupSettled, sent, Bool.true_and, Bool.and_eq_false_iff,
              decide_eq_false_iff_not]
            omega
      programmes := by
        intro isSome
        cases sent : c.sentLineup with
        | false => simp [programmesDue, lineupSettled, sent]
        | true =>
            have := programmes ⟨isSome, sent⟩
            simp only [programmesDue, lineupSettled, sent, Bool.true_and, Bool.and_eq_false_iff,
              decide_eq_false_iff_not]
            omega
      index := by
        intro isSome
        cases sent : c.sentTitles with
        | false => simp [indexDue, sent]
        | true =>
            have := index ⟨isSome, sent⟩
            simp only [indexDue, sent, Bool.true_and, Bool.and_eq_false_iff, decide_eq_false_iff_not]
            omega }
  · rintro ⟨clock, lineup, titles, programmes, index⟩
    simp only [clockDue, lineupDue, titlesDue, programmesDue, indexDue, lineupSettled,
      Bool.and_eq_false_iff, decide_eq_false_iff_not, not_le] at clock lineup titles programmes index
    simp only [nextDue, started, Bool.not_true, Bool.false_eq_true, if_false, lt_lowerDue,
      Bool.and_eq_true, lt_max_iff]
    refine ⟨⟨⟨⟨clock, fun sent => ?_⟩, fun sent => ?_⟩, fun ⟨isSome, sent⟩ => ?_⟩,
      fun ⟨isSome, sent⟩ => ?_⟩
    · simpa [sent, or_comm] using lineup
    · simpa [sent, or_comm] using titles
    · simpa [sent, or_comm] using index isSome
    · simpa [sent, or_comm] using programmes isSome

end Carousel

namespace WaveStep

theorem rung_of_not_due {rung : Rung} {name : String} {due : Carousel σ → Nat → Bool}
    {source : Option (SourceFn σ)} {record : Nat → Carousel σ → List Emission → Carousel σ}
    {now : Nat} {step : WaveStep σ}
    (notDue : source.isSome → due step.carousel now = false) :
    WaveStep.rung rung name due source record now step = step := by
  cases source with
  | none => rfl
  | some source => simp [WaveStep.rung, notDue rfl]

@[simp]
theorem unlessFailed_of_none {step : WaveStep σ} (succeeded : step.error = none)
    (next : WaveStep σ → WaveStep σ) :
    step.unlessFailed next = next step := by
  simp [unlessFailed, succeeded]

theorem unlessFailed_error {step : WaveStep σ} {next : WaveStep σ → WaveStep σ}
    (succeeded : (step.unlessFailed next).error = none) :
    step.error = none ∧ step.unlessFailed next = next step := by
  cases failed : step.error with
  | none => exact ⟨rfl, unlessFailed_of_none failed next⟩
  | some error => simp [unlessFailed, failed] at succeeded

/-- A property of the carousel that one rung's record keeps is kept by the
rung. -/
theorem rung_keeps {rung : Rung} {name : String} {due : Carousel σ → Nat → Bool}
    {source : Option (SourceFn σ)} {record : Nat → Carousel σ → List Emission → Carousel σ}
    {now : Nat} {step : WaveStep σ} (property : Carousel σ → Prop)
    (kept : ∀ sections, property step.carousel → property (record now step.carousel sections))
    (holds : property step.carousel) :
    property (WaveStep.rung rung name due source record now step).carousel := by
  cases source with
  | none => exact holds
  | some source =>
      simp only [WaveStep.rung, callSource]
      split
      · split
        · exact holds
        · exact kept _ holds
      · exact holds

theorem rung_settles {rung : Rung} {name : String} {due : Carousel σ → Nat → Bool}
    {source : Option (SourceFn σ)} {record : Nat → Carousel σ → List Emission → Carousel σ}
    {now : Nat} {step : WaveStep σ}
    (settles : ∀ sections, due (record now step.carousel sections) now = false)
    (isSome : source.isSome)
    (succeeded : (WaveStep.rung rung name due source record now step).error = none) :
    due (WaveStep.rung rung name due source record now step).carousel now = false := by
  obtain ⟨source, rfl⟩ := Option.isSome_iff_exists.mp isSome
  by_cases isDue : due step.carousel now = true
  · simp only [WaveStep.rung, isDue, if_true, callSource] at succeeded ⊢
    split at succeeded
    · cases succeeded
    · exact settles _
  · simp [WaveStep.rung, isDue]

end WaveStep

namespace Carousel

theorem CountsFit.of_setup {before after : Carousel σ} {now : Nat}
    (same : SameSetup before after) (fits : before.CountsFit now) :
    after.CountsFit now where
  clock := by simpa only [same.schedule] using fits.clock
  lineup := by simpa only [same.schedule] using fits.lineup
  titles := by simpa only [same.schedule] using fits.titles
  programmes := by simpa only [same.schedule, same.source] using fits.programmes
  index := by simpa only [same.schedule, same.source] using fits.index

/-- The event rung has nothing to say at `now`, or has no source. -/
def EventsQuiet (c : Carousel σ) (now : Nat) : Prop :=
  c.source.events.isSome → c.eventsDue now = false

/-- Up to the event rung a quiet carousel is left as it is. -/
theorem rungs_before_events_of_quiet {c : Carousel σ} (started : c.started = true) {now : Nat}
    (quiet : c.Quiet now) (world : σ) :
    c.wave now world =
      ((WaveStep.eventsRung now { carousel := c, world }).unlessFailed
        (WaveStep.programmesRung now)).unlessFailed (WaveStep.indexRung now) := by
  have clock : WaveStep.clockRung now { carousel := c, world } = { carousel := c, world } :=
    WaveStep.rung_of_not_due fun _ => quiet.clock
  have lineup : WaveStep.lineupRung now { carousel := c, world } = { carousel := c, world } :=
    WaveStep.rung_of_not_due fun _ => quiet.lineup
  have titles : WaveStep.titlesRung now { carousel := c, world } = { carousel := c, world } :=
    WaveStep.rung_of_not_due fun _ => quiet.titles
  simp [wave, started, clock, lineup, titles]

/-- With no rung due, a wave does nothing. -/
theorem wave_of_quiet {c : Carousel σ} (started : c.started = true) {now : Nat}
    (quiet : c.Quiet now) (eventsQuiet : c.EventsQuiet now) (world : σ) :
    c.wave now world = { carousel := c, world } := by
  have events : WaveStep.eventsRung now { carousel := c, world } = { carousel := c, world } :=
    WaveStep.rung_of_not_due eventsQuiet
  have programmes :
      WaveStep.programmesRung now { carousel := c, world } = { carousel := c, world } :=
    WaveStep.rung_of_not_due quiet.programmes
  have index : WaveStep.indexRung now { carousel := c, world } = { carousel := c, world } :=
    WaveStep.rung_of_not_due quiet.index
  simp [rungs_before_events_of_quiet started quiet, events, programmes, index]

end Carousel

namespace WaveStep

theorem callSource_calls (rung : Rung) (name : String) (source : SourceFn σ) (now : Nat)
    (record : Carousel σ → List Emission → Carousel σ) (step : WaveStep σ) :
    (callSource rung name source now record step).calls = step.calls ++ [rung] := by
  unfold callSource
  split <;> rfl

theorem calls_prefix_rung (rung : Rung) (name : String) (due : Carousel σ → Nat → Bool)
    (source : Option (SourceFn σ)) (record : Nat → Carousel σ → List Emission → Carousel σ)
    (now : Nat) (step : WaveStep σ) :
    step.calls <+: (WaveStep.rung rung name due source record now step).calls := by
  cases source with
  | none => exact List.prefix_rfl
  | some source =>
      simp only [WaveStep.rung]
      split
      · rw [callSource_calls]
        exact List.prefix_append _ _
      · exact List.prefix_rfl

theorem calls_prefix_programmesRung (now : Nat) (step : WaveStep σ) :
    step.calls <+: (programmesRung now step).calls :=
  calls_prefix_rung ..

theorem calls_prefix_indexRung (now : Nat) (step : WaveStep σ) :
    step.calls <+: (indexRung now step).calls :=
  calls_prefix_rung ..

theorem calls_prefix_unlessFailed {step : WaveStep σ} {next : WaveStep σ → WaveStep σ}
    (grows : step.calls <+: (next step).calls) :
    step.calls <+: (step.unlessFailed next).calls := by
  unfold unlessFailed
  split
  · exact List.prefix_rfl
  · exact grows

end WaveStep

namespace Carousel

/-- With only the events due, a wave calls the event source. -/
theorem events_mem_wave_calls {c : Carousel σ} (started : c.started = true) {now : Nat}
    (quiet : c.Quiet now) (isSome : c.source.events.isSome) (due : c.eventsDue now = true)
    (world : σ) :
    .events ∈ (c.wave now world).calls := by
  obtain ⟨source, isSource⟩ := Option.isSome_iff_exists.mp isSome
  have called : (WaveStep.eventsRung now { carousel := c, world }).calls = [.events] := by
    simp [WaveStep.eventsRung, WaveStep.rung, isSource, due, WaveStep.callSource_calls]
  rw [rungs_before_events_of_quiet started quiet]
  have first := WaveStep.calls_prefix_unlessFailed
    (WaveStep.calls_prefix_programmesRung now (WaveStep.eventsRung now { carousel := c, world }))
  have second := WaveStep.calls_prefix_unlessFailed
    (WaveStep.calls_prefix_indexRung now
      ((WaveStep.eventsRung now { carousel := c, world }).unlessFailed
        (WaveStep.programmesRung now)))
  exact (first.trans second).subset (by simp [called])

end Carousel

namespace WaveStep

structure FrontQuiet (c : Carousel σ) (now : Nat) : Prop where
  clock : c.clockDue now = false
  lineup : c.lineupDue now = false
  titles : c.titlesDue now = false

theorem rung_setup {rung : Rung} {name : String} {due : Carousel σ → Nat → Bool}
    {source : Option (SourceFn σ)} {record : Nat → Carousel σ → List Emission → Carousel σ}
    {now : Nat} {step : WaveStep σ}
    (kept : ∀ sections, Carousel.SameSetup step.carousel (record now step.carousel sections)) :
    Carousel.SameSetup step.carousel
      (WaveStep.rung rung name due source record now step).carousel :=
  rung_keeps (Carousel.SameSetup step.carousel) (fun sections _ => kept sections)
    (Carousel.SameSetup.refl _)

theorem clockRung_setup (now : Nat) (step : WaveStep σ) :
    Carousel.SameSetup step.carousel (clockRung now step).carousel :=
  rung_setup (Carousel.recordClock_setup now _)

theorem lineupRung_setup (now : Nat) (step : WaveStep σ) :
    Carousel.SameSetup step.carousel (lineupRung now step).carousel :=
  rung_setup (Carousel.recordLineup_setup now _)

theorem titlesRung_setup (now : Nat) (step : WaveStep σ) :
    Carousel.SameSetup step.carousel (titlesRung now step).carousel :=
  rung_setup (Carousel.recordTitles_setup now _)

theorem eventsRung_setup (now : Nat) (step : WaveStep σ) :
    Carousel.SameSetup step.carousel (eventsRung now step).carousel :=
  rung_setup (Carousel.recordEvents_setup now _)

theorem programmesRung_setup (now : Nat) (step : WaveStep σ) :
    Carousel.SameSetup step.carousel (programmesRung now step).carousel :=
  rung_setup (Carousel.recordProgrammes_setup now _)

theorem indexRung_setup (now : Nat) (step : WaveStep σ) :
    Carousel.SameSetup step.carousel (indexRung now step).carousel :=
  rung_setup (Carousel.recordIndex_setup now _)

theorem clockRung_quiet {now : Nat} {step : WaveStep σ} (fits : step.carousel.CountsFit now)
    (succeeded : (clockRung now step).error = none) :
    (clockRung now step).carousel.clockDue now = false :=
  rung_settles (fun sections => Carousel.recordClock_clockDue fits sections)
    step.carousel.accepted.clock_isSome succeeded

theorem lineupRung_quiet {now : Nat} {step : WaveStep σ} (fits : step.carousel.CountsFit now)
    (clock : step.carousel.clockDue now = false)
    (succeeded : (lineupRung now step).error = none) :
    (lineupRung now step).carousel.clockDue now = false ∧
      (lineupRung now step).carousel.lineupDue now = false := by
  constructor
  · exact rung_keeps (fun c => c.clockDue now = false)
      (fun sections quiet => (Carousel.recordLineup_clockDue now _ sections).trans quiet) clock
  · exact rung_settles (fun sections => Carousel.recordLineup_lineupDue fits sections)
      step.carousel.accepted.lineup_isSome succeeded

theorem titlesRung_quiet {now : Nat} {step : WaveStep σ} (fits : step.carousel.CountsFit now)
    (clock : step.carousel.clockDue now = false)
    (lineup : step.carousel.lineupDue now = false)
    (succeeded : (titlesRung now step).error = none) :
    FrontQuiet (titlesRung now step).carousel now where
  clock := rung_keeps (fun c => c.clockDue now = false)
    (fun sections quiet => (Carousel.recordTitles_clockDue now _ sections).trans quiet) clock
  lineup := rung_keeps (fun c => c.lineupDue now = false)
    (fun sections quiet => (Carousel.recordTitles_lineupDue now _ sections).trans quiet) lineup
  titles := rung_settles (fun sections => Carousel.recordTitles_titlesDue fits sections)
    step.carousel.accepted.titles_isSome succeeded

theorem eventsRung_frontQuiet {now : Nat} {step : WaveStep σ}
    (front : FrontQuiet step.carousel now) :
    FrontQuiet (eventsRung now step).carousel now :=
  rung_keeps (fun c => FrontQuiet c now)
    (fun _ quiet => ⟨quiet.clock, quiet.lineup, quiet.titles⟩) front

theorem programmesRung_quiet {now : Nat} {step : WaveStep σ}
    (fits : step.carousel.CountsFit now) (front : FrontQuiet step.carousel now)
    (succeeded : (programmesRung now step).error = none) :
    FrontQuiet (programmesRung now step).carousel now ∧
      (step.carousel.source.programmes.isSome →
        (programmesRung now step).carousel.programmesDue now = false) := by
  constructor
  · exact rung_keeps (fun c => FrontQuiet c now)
      (fun _ quiet => ⟨quiet.clock, quiet.lineup, quiet.titles⟩) front
  · intro isSome
    exact rung_settles (fun sections => Carousel.recordProgrammes_programmesDue fits isSome sections)
      isSome succeeded

theorem indexRung_quiet {now : Nat} {step : WaveStep σ} (fits : step.carousel.CountsFit now)
    (front : FrontQuiet step.carousel now)
    (programmes : step.carousel.source.programmes.isSome →
      step.carousel.programmesDue now = false)
    (succeeded : (indexRung now step).error = none) :
    (indexRung now step).carousel.Quiet now := by
  have setup := indexRung_setup now step
  have front' : FrontQuiet (indexRung now step).carousel now :=
    rung_keeps (fun c => FrontQuiet c now)
      (fun _ quiet => ⟨quiet.clock, quiet.lineup, quiet.titles⟩) front
  exact {
    clock := front'.clock
    lineup := front'.lineup
    titles := front'.titles
    programmes := by
      rw [setup.source]
      intro isSome
      exact rung_keeps (fun c => c.programmesDue now = false)
        (fun _ quiet => quiet) (programmes isSome)
    index := by
      rw [setup.source]
      intro isSome
      exact rung_settles (fun sections => Carousel.recordIndex_indexDue fits isSome sections)
        isSome succeeded }

end WaveStep

namespace Carousel

open WaveStep in
/-- After a wave without an error, none of the rungs the bound considers is due
at the same count. -/
theorem wave_quiet {c : Carousel σ} {now : Nat} (fits : c.CountsFit now) {world : σ}
    (succeeded : (c.wave now world).error = none) :
    (c.wave now world).carousel.started = true ∧ (c.wave now world).carousel.Quiet now := by
  unfold wave at succeeded ⊢
  obtain ⟨programmesOk, indexStep⟩ := unlessFailed_error succeeded
  obtain ⟨eventsOk, programmesStep⟩ := unlessFailed_error programmesOk
  obtain ⟨titlesOk, eventsStep⟩ := unlessFailed_error eventsOk
  obtain ⟨lineupOk, titlesStep⟩ := unlessFailed_error titlesOk
  obtain ⟨clockOk, lineupStep⟩ := unlessFailed_error lineupOk
  rw [lineupStep] at lineupOk titlesStep titlesOk eventsStep eventsOk
  rw [lineupStep] at programmesStep programmesOk indexStep succeeded
  rw [titlesStep] at titlesOk eventsStep eventsOk programmesStep programmesOk indexStep
  rw [eventsStep] at eventsOk programmesStep programmesOk indexStep
  rw [programmesStep] at programmesOk indexStep
  rw [lineupStep, titlesStep, eventsStep, programmesStep, indexStep]
  rw [titlesStep, eventsStep, programmesStep, indexStep] at succeeded
  set opened : WaveStep σ := { carousel := c.start now, world }
  have openedFits : opened.carousel.CountsFit now :=
    { clock := by simpa [opened] using fits.clock
      lineup := by simpa [opened] using fits.lineup
      titles := by simpa [opened] using fits.titles
      programmes := by simpa [opened] using fits.programmes
      index := by simpa [opened] using fits.index }
  have clockSetup := clockRung_setup now opened
  have lineupSetup := clockSetup.trans (lineupRung_setup now _)
  have titlesSetup := lineupSetup.trans (titlesRung_setup now _)
  have eventsSetup := titlesSetup.trans (eventsRung_setup now _)
  have programmesSetup := eventsSetup.trans (programmesRung_setup now _)
  have indexSetup := programmesSetup.trans (indexRung_setup now _)
  have clock := clockRung_quiet openedFits clockOk
  obtain ⟨clock, lineup⟩ := lineupRung_quiet (openedFits.of_setup clockSetup) clock lineupOk
  have front := titlesRung_quiet (openedFits.of_setup lineupSetup) clock lineup titlesOk
  have front := eventsRung_frontQuiet front
  obtain ⟨front, programmes⟩ :=
    programmesRung_quiet (openedFits.of_setup eventsSetup) front programmesOk
  refine ⟨?_, indexRung_quiet (openedFits.of_setup programmesSetup) front ?_ succeeded⟩
  · rw [indexSetup.started]
    simp [opened]
  · rwa [(programmesRung_setup now _).source]

/-- After a wave without an error the bound lies in the future. -/
theorem lt_nextDue_wave {c : Carousel σ} {now : Nat} (fits : c.CountsFit now) {world : σ}
    (succeeded : (c.wave now world).error = none) :
    now < (c.wave now world).carousel.nextDue := by
  obtain ⟨started, quiet⟩ := wave_quiet fits succeeded
  exact (lt_nextDue_iff started now).mpr quiet

end Carousel

end GoRetroTv
