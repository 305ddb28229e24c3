import GoRetroTv.MachineWords

/-!
# The transmitter's carousel

`internal/broadcast/carousel.go`: when a wave of sections goes on air and in
what order.  Each rung is held back until the one below it has gone out and
has had its settle.  The sections come from a `Source`, whose functions may
read and change state of their own; that state is the type `σ` here, and a
wave threads it through the calls it makes.
-/

namespace GoRetroTv

/-- One section and the PID it is transmitted on. -/
structure Emission where
  pid : Half
  section_ : List Byte
  deriving DecidableEq, Repr

/-- The six rungs of the carousel, one for each function of a `Source`. -/
inductive Rung where
  | clock
  | lineup
  | titles
  | events
  | programmes
  | index
  deriving DecidableEq, Repr

/-- A source function: the sections it supplies at an instruction, or an error
text, with the source's own state afterwards. -/
abbrev SourceFn (σ : Type) := Nat → σ → Except String (List Emission) × σ

/-- The supplier of the sections for a wave.  `none` is Go's nil function. -/
structure Source (σ : Type) where
  clock : Option (SourceFn σ)
  lineup : Option (SourceFn σ)
  titles : Option (SourceFn σ)
  events : Option (SourceFn σ) := none
  programmes : Option (SourceFn σ) := none
  index : Option (SourceFn σ) := none

/-- The carousel's timing, in instructions. -/
structure Schedule where
  clockPeriod : Nat
  lineupPeriod : Nat
  titlePeriod : Nat
  eventPeriod : Nat := 0
  programmePeriod : Nat := 0
  indexPeriod : Nat := 0
  clockSettle : Nat := 0
  lineupSettle : Nat := 0
  titleSettle : Nat := 0
  deriving Repr

/-- What `newCarousel` checks before it builds a carousel. -/
structure Accepted {σ : Type} (schedule : Schedule) (source : Source σ) : Prop where
  clockPeriod_pos : 0 < schedule.clockPeriod
  lineupPeriod_pos : 0 < schedule.lineupPeriod
  titlePeriod_pos : 0 < schedule.titlePeriod
  clock_isSome : source.clock.isSome
  lineup_isSome : source.lineup.isSome
  titles_isSome : source.titles.isSome
  eventPeriod_pos : source.events.isSome → 0 < schedule.eventPeriod
  programmePeriod_pos : source.programmes.isSome → 0 < schedule.programmePeriod
  indexPeriod_pos : source.index.isSome → 0 < schedule.indexPeriod

/-- A carousel that has been accepted, with how far its schedule has got. -/
structure Carousel (σ : Type) where
  schedule : Schedule
  source : Source σ
  accepted : Accepted schedule source
  started : Bool := false
  nextClock : Nat := 0
  nextLineup : Nat := 0
  nextTitles : Nat := 0
  nextEvents : Nat := 0
  nextProgrammes : Nat := 0
  nextIndex : Nat := 0
  clockedAt : Nat := 0
  lineupAt : Nat := 0
  titledAt : Nat := 0
  sentClock : Bool := false
  sentLineup : Bool := false
  sentTitles : Bool := false

variable {σ : Type}

/-- The refusal of a period of zero. -/
def zeroPeriodError (name : String) : String :=
  s!"broadcast: carousel {name} is zero; a wave due every zero instructions never stops firing"

/-- The refusal of a period of zero for an optional source that is set. -/
def zeroOptionalPeriodError (name source : String) : String :=
  s!"broadcast: carousel {name} is zero with {source} source set; " ++
    "a wave due every zero instructions never stops firing"

/-- Validate a schedule and a source, in the source's order. -/
def newCarousel (schedule : Schedule) (source : Source σ) :
    Except String (Carousel σ) :=
  if clockPeriod : schedule.clockPeriod = 0 then
    .error (zeroPeriodError "ClockPeriod")
  else if lineupPeriod : schedule.lineupPeriod = 0 then
    .error (zeroPeriodError "LineupPeriod")
  else if titlePeriod : schedule.titlePeriod = 0 then
    .error (zeroPeriodError "TitlePeriod")
  else if clock : source.clock.isNone then
    .error ("broadcast: a carousel with no clock source can never release the line-up, " ++
      "so the box would ask for the epoch for ever")
  else if lineup : source.lineup.isNone then
    .error "broadcast: a carousel with no line-up source never acquires"
  else if titles : source.titles.isNone then
    .error "broadcast: a carousel with no title source carries no programmes"
  else if events : source.events.isSome ∧ schedule.eventPeriod = 0 then
    .error (zeroOptionalPeriodError "EventPeriod" "an event")
  else if programmes : source.programmes.isSome ∧ schedule.programmePeriod = 0 then
    .error (zeroOptionalPeriodError "ProgrammePeriod" "a programme")
  else if index : source.index.isSome ∧ schedule.indexPeriod = 0 then
    .error (zeroOptionalPeriodError "IndexPeriod" "an index")
  else
    .ok {
      schedule
      source
      accepted := {
        clockPeriod_pos := Nat.pos_of_ne_zero clockPeriod
        lineupPeriod_pos := Nat.pos_of_ne_zero lineupPeriod
        titlePeriod_pos := Nat.pos_of_ne_zero titlePeriod
        clock_isSome := by simpa [Option.isSome_iff_ne_none] using clock
        lineup_isSome := by simpa [Option.isSome_iff_ne_none] using lineup
        titles_isSome := by simpa [Option.isSome_iff_ne_none] using titles
        eventPeriod_pos := fun isSome => Nat.pos_of_ne_zero fun zero => events ⟨isSome, zero⟩
        programmePeriod_pos := fun isSome =>
          Nat.pos_of_ne_zero fun zero => programmes ⟨isSome, zero⟩
        indexPeriod_pos := fun isSome => Nat.pos_of_ne_zero fun zero => index ⟨isSome, zero⟩ } }

/-- What one `Wave` call has done so far: the carousel and the source's state
as they stand, the source functions called in order, the sections collected,
and the error that ended it, if one did. -/
structure WaveStep (σ : Type) where
  carousel : Carousel σ
  world : σ
  calls : List Rung := []
  wave : List Emission := []
  error : Option String := none

namespace WaveStep

/-- What a `Wave` that has run to its end returns: no sections beside an
error. -/
def result (step : WaveStep σ) : Except String (List Emission) :=
  match step.error with
  | some error => .error error
  | none => .ok step.wave

/-- Call one source function at `now`.  On success its sections join the wave
and `record` moves the schedule on; on error the carousel keeps what it has. -/
def callSource (rung : Rung) (name : String) (source : SourceFn σ) (now : Nat)
    (record : Carousel σ → List Emission → Carousel σ) (step : WaveStep σ) :
    WaveStep σ :=
  match source now step.world with
  | (.error error, world) =>
      { step with
        world
        calls := step.calls ++ [rung]
        error := some s!"broadcast: carousel {name} wave at {now}: {error}" }
  | (.ok sections, world) =>
      { step with
        world
        calls := step.calls ++ [rung]
        wave := step.wave ++ sections
        carousel := record step.carousel sections }

/-- Go's early return: later rungs do not run after an error. -/
def unlessFailed (step : WaveStep σ) (next : WaveStep σ → WaveStep σ) : WaveStep σ :=
  if step.error.isSome then step else next step

end WaveStep

namespace Carousel

/-- The clock wave is due. -/
def clockDue (c : Carousel σ) (now : Nat) : Bool :=
  decide (c.nextClock ≤ now)

/-- The line-up has been released and is due. -/
def lineupDue (c : Carousel σ) (now : Nat) : Bool :=
  c.sentClock && decide (wrapAdd c.clockedAt c.schedule.clockSettle ≤ now) &&
    decide (c.nextLineup ≤ now)

/-- What everything behind the line-up waits for. -/
def lineupSettled (c : Carousel σ) (now : Nat) : Bool :=
  c.sentLineup && decide (wrapAdd c.lineupAt c.schedule.lineupSettle ≤ now)

/-- The titles have been released and are due. -/
def titlesDue (c : Carousel σ) (now : Nat) : Bool :=
  c.lineupSettled now && decide (c.nextTitles ≤ now)

/-- The present/following events have been released and are due. -/
def eventsDue (c : Carousel σ) (now : Nat) : Bool :=
  c.lineupSettled now && decide (c.nextEvents ≤ now)

/-- The fixed PSI chain has been released and is due. -/
def programmesDue (c : Carousel σ) (now : Nat) : Bool :=
  c.lineupSettled now && decide (c.nextProgrammes ≤ now)

/-- The index has been released and is due. -/
def indexDue (c : Carousel σ) (now : Nat) : Bool :=
  c.sentTitles && decide (wrapAdd c.titledAt c.schedule.titleSettle ≤ now) &&
    decide (c.nextIndex ≤ now)

/-- The first `Wave` starts the schedule at its own instruction. -/
def start (c : Carousel σ) (now : Nat) : Carousel σ :=
  if c.started then c
  else { c with started := true, nextClock := now, nextLineup := now, nextTitles := now }

def recordClock (now : Nat) (c : Carousel σ) (sections : List Emission) : Carousel σ :=
  let c := { c with nextClock := wrapAdd now c.schedule.clockPeriod }
  if !c.sentClock && decide (0 < sections.length) then
    { c with sentClock := true, clockedAt := now }
  else c

def recordLineup (now : Nat) (c : Carousel σ) (sections : List Emission) : Carousel σ :=
  let c := { c with nextLineup := wrapAdd now c.schedule.lineupPeriod }
  if !c.sentLineup && decide (0 < sections.length) then
    { c with sentLineup := true, lineupAt := now }
  else c

def recordTitles (now : Nat) (c : Carousel σ) (sections : List Emission) : Carousel σ :=
  let c := { c with nextTitles := wrapAdd now c.schedule.titlePeriod }
  if !c.sentTitles && decide (0 < sections.length) then
    { c with sentTitles := true, titledAt := now }
  else c

def recordEvents (now : Nat) (c : Carousel σ) (_ : List Emission) : Carousel σ :=
  { c with nextEvents := wrapAdd now c.schedule.eventPeriod }

def recordProgrammes (now : Nat) (c : Carousel σ) (_ : List Emission) : Carousel σ :=
  { c with nextProgrammes := wrapAdd now c.schedule.programmePeriod }

def recordIndex (now : Nat) (c : Carousel σ) (_ : List Emission) : Carousel σ :=
  { c with nextIndex := wrapAdd now c.schedule.indexPeriod }

end Carousel

namespace WaveStep

/-- One rung of the ladder: call the source when it is set and due.  A rung
whose source is Go's nil is passed over, which `Accepted` rules out for the
clock, the line-up and the titles. -/
def rung (rung : Rung) (name : String) (due : Carousel σ → Nat → Bool)
    (source : Option (SourceFn σ)) (record : Nat → Carousel σ → List Emission → Carousel σ)
    (now : Nat) (step : WaveStep σ) : WaveStep σ :=
  match source with
  | none => step
  | some source =>
      if due step.carousel now then callSource rung name source now (record now) step else step

def clockRung (now : Nat) (step : WaveStep σ) : WaveStep σ :=
  rung .clock "clock" Carousel.clockDue step.carousel.source.clock
    Carousel.recordClock now step

def lineupRung (now : Nat) (step : WaveStep σ) : WaveStep σ :=
  rung .lineup "line-up" Carousel.lineupDue step.carousel.source.lineup
    Carousel.recordLineup now step

def titlesRung (now : Nat) (step : WaveStep σ) : WaveStep σ :=
  rung .titles "title" Carousel.titlesDue step.carousel.source.titles
    Carousel.recordTitles now step

def eventsRung (now : Nat) (step : WaveStep σ) : WaveStep σ :=
  rung .events "event" Carousel.eventsDue step.carousel.source.events
    Carousel.recordEvents now step

def programmesRung (now : Nat) (step : WaveStep σ) : WaveStep σ :=
  rung .programmes "programme" Carousel.programmesDue step.carousel.source.programmes
    Carousel.recordProgrammes now step

def indexRung (now : Nat) (step : WaveStep σ) : WaveStep σ :=
  rung .index "index" Carousel.indexDue step.carousel.source.index
    Carousel.recordIndex now step

end WaveStep

namespace Carousel

/-- `Wave`: everything due at `now`, in transmission order, with the schedule
advanced past it. -/
def wave (c : Carousel σ) (now : Nat) (world : σ) : WaveStep σ :=
  (((((WaveStep.clockRung now { carousel := c.start now, world }).unlessFailed
    (WaveStep.lineupRung now)).unlessFailed
    (WaveStep.titlesRung now)).unlessFailed
    (WaveStep.eventsRung now)).unlessFailed
    (WaveStep.programmesRung now)).unlessFailed
    (WaveStep.indexRung now)

/-- Lower `due` to the later of `next` and `hold` when a rung has been
released. -/
def lowerDue (released : Bool) (next hold due : Nat) : Nat :=
  if released then min due (max next hold) else due

/-- `NextDue`: the instruction before which a driver need not call `wave`.
The clock, the line-up, the titles, the index and the programmes are
considered; the events are not. -/
def nextDue (c : Carousel σ) : Nat :=
  if !c.started then 0
  else
    let due := c.nextClock
    let due := lowerDue c.sentClock c.nextLineup (wrapAdd c.clockedAt c.schedule.clockSettle) due
    let due := lowerDue c.sentLineup c.nextTitles
      (wrapAdd c.lineupAt c.schedule.lineupSettle) due
    let due := lowerDue (c.source.index.isSome && c.sentTitles) c.nextIndex
      (wrapAdd c.titledAt c.schedule.titleSettle) due
    lowerDue (c.source.programmes.isSome && c.sentLineup) c.nextProgrammes
      (wrapAdd c.lineupAt c.schedule.lineupSettle) due

end Carousel

end GoRetroTv
