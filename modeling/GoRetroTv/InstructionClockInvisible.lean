import GoRetroTv.InstructionClockBatching

/-!
# Batching is invisible

Every clock whose runs never lose a periodic event to the counter's overflow is
steady between calls, and so a run of instructions may be cut into batches at
will.  A clock that has lost one keeps a stale next due instruction, and then
`Tick` and `Advance` part.
-/

namespace GoRetroTv

namespace Driven

variable {H W : Type} {run : H → Nat → W → Script H W} {target : Nat}

/-- While every periodic event has a next due instruction, `fireDue` cannot fail. -/
theorem fireDue_clean {fuel : Nat} {d : Driven H W} {ending : Ending H W} (sound : d.clock.Sound)
    (fits : Fits run target d) (ended : fireDue run target fuel d = some ending) :
    ending.Clean := by
  induction fuel generalizing d with
  | zero => cases ended
  | succ fuel ih =>
      rw [fireDue] at ended
      split at ended
      next ready =>
        obtain ⟨ev, clock, fired, _, turn⟩ :=
          @turn_spec _ _ run _ _ sound ready (fits d .start ready)
        rw [fired] at ended
        dsimp only at ended
        rcases @handle_cases _ _ run d ev clock with ⟨world, after, _, handled⟩ | ⟨_, handled⟩
        · rw [handled] at ended
          exact ih (turn _ handled).1 (fits.turn ready fired handled) ended
        · rw [handled] at ended
          cases ended
          trivial
      next =>
        cases ended
        trivial

/-- A call past the end of the counter leaves the clock as it is. -/
theorem Answers.out_of_range {c : Call} {d d' : Driven H W} {ending : Ending H W}
    (fits : d.clock.icount < countLimit) (outOfRange : ¬ d.clock.icount + c.length < countLimit)
    (answered : Answers run c d ending) (left : ending.state = some d') : d' = d := by
  obtain ⟨fuel, ended⟩ := answered
  cases c with
  | tick =>
      have last : d.clock.icount = noneDue := by
        change ¬ d.clock.icount + 1 < countLimit at outOfRange
        unfold noneDue
        omega
      unfold Driven.call Driven.tick Clock.countTick at ended
      rw [if_pos last] at ended
      cases ended
      exact (Option.some.inj left).symm
  | advance n =>
      change advance run n fuel d = some ending at ended
      unfold advance Clock.advanceTarget Clock.add at ended
      rw [if_neg (by exact outOfRange)] at ended
      cases ended
      exact (Option.some.inj left).symm

/-- A call within the counter's range returns no error. -/
theorem Answers.clean {c : Call} {d : Driven H W} {ending : Ending H W} (steady : d.clock.Steady)
    (inRange : d.clock.icount + c.length < countLimit)
    (fits : Fits run (d.clock.icount + c.length) d) (answered : Answers run c d ending) :
    ending.Clean := by
  obtain ⟨fuel, ended⟩ := answered
  cases c with
  | tick =>
      change tick run fuel d = some ending at ended
      rw [tick_eq inRange] at ended
      split at ended
      next isDue =>
        have sound : (d.withIcount (d.clock.icount + 1)).clock.Sound :=
          steady.toSound.withIcount steady.later
        exact fireDue_clean sound (fits.withIcount _) ended
      next =>
        cases ended
        trivial
  | advance n =>
      change advance run n fuel d = some ending at ended
      unfold advance at ended
      rw [advanceTarget_ok (by exact inRange)] at ended
      exact fireDue_clean steady.toSound fits ended

/-- The clocks and worlds of every run in which no periodic event outgrows the
counter are steady between calls. -/
theorem Reachable.steady {clock : Clock H} {world : W}
    (reached : Reachable run (Fits run) clock world) : clock.Steady ∧ clock.icount < countLimit := by
  induction reached with
  | new world => exact ⟨.of_empty rfl rfl, Nat.two_pow_pos 64⟩
  | script _ script performed ih =>
      obtain ⟨steady, fits⟩ := ih
      refine ⟨steady.perform performed, ?_⟩
      rw [(steady.toSound.perform performed).2.icount]
      exact fits
  | @call clock world _ c met ending d answered left ih =>
      obtain ⟨steady, fits⟩ := ih
      by_cases inRange : clock.icount + c.length < countLimit
      · have clean := answered.clean steady inRange met
        cases ending with
        | returned last =>
            cases left
            have fires := (answers_clean clean steady inRange).mp answered
            obtain ⟨steady', icount, _⟩ := fires.spec steady.toSound met
            exact ⟨steady', icount ▸ inRange⟩
        | failed => exact clean.elim
        | panicked => cases left
      · rw [answered.out_of_range fits inRange left]
        exact ⟨steady, fits⟩
  | restore _ accepted _ => exact Clock.Steady.of_restore accepted
  | restoreTo _ icount _ => exact ⟨.of_empty rfl rfl, icount.isLt⟩

/-- Between calls a steady clock has fired nothing that is not over. -/
theorem sorted_start (clock : Clock H) (world : W) : Sorted { clock, world, fired := [] } where
  sorted := .nil
  past := by simp
  before := by simp

/-- However the next `a + b` instructions of a reachable clock are cut into
batches, the same events fire and the same clock is left, or the same call of
`Cancel` panics, as long as no periodic event outgrows the counter. -/
theorem batching_invisible {clock : Clock H} {world : W}
    (reached : Reachable run (Fits run) clock world) (a b : Nat)
    (inRange : clock.icount + (a + b) < countLimit)
    (fits : Fits run (clock.icount + (a + b)) { clock, world }) :
    ∃ ending, Invisible run a b { clock, world } ending := by
  set d : Driven H W := { clock, world } with isStart
  have steady : d.clock.Steady := reached.steady.1
  obtain ⟨ending, fires⟩ := exists_firesTo steady.toSound fits
  have calls (batches : List Call) (whole : total batches = a + b) :
      Performs run batches d ending := by
    rw [← whole] at fires inRange fits
    exact (performs_iff steady inRange fits).mpr fires
  have loop {max : Nat} {ending' : Ending H W} (budgeted : Budgeted run max (a + b) d ending') :
      ending' = ending :=
    (budgeted.firesTo steady inRange fits).unique fires
  refine ⟨ending, {
    whole := calls _ rfl
    split := calls _ rfl
    ticks := calls _ (total_replicate _)
    budgeted := ?_
    unique := fun max ending' => loop
    sorted := fires.inOrder steady.toSound fits (sorted_start clock world) }⟩
  intro max positive
  obtain ⟨ending', budgeted⟩ := exists_budgeted positive (a + b) steady inRange fits
  rwa [loop budgeted] at budgeted

/-- A handler that cancels two events. -/
def cancelBoth : Unit → Nat → Unit → Script Unit Unit :=
  fun _ _ _ => .cancel 2 fun _ => .cancel 1 fun _ => .done ()

/-- A clock with two events that is restored from its own snapshot, and then a
third event whose handler cancels them. -/
def cancelling : Except String (Clock Unit) := do
  let c := (Clock.new.at_ 10 (ascii "a") (some ())).2
  let c := (c.at_ 20 (ascii "b") (some ())).2
  let c ← c.restore (← c.snapshot) fun _ => some ()
  return (c.at_ 5 (ascii "c") (some ())).2

/-- The restore leaves both at the root, so the second call of `Cancel` panics. -/
example :
    (cancelling.toOption.bind fun clock => advance cancelBoth 5 1 { clock, world := () }).map
      (fun ending => (ending.fired, ending.state.isSome)) = some ([⟨3, 5, 2⟩], false) := by
  decide +kernel

/-- Handlers that leave the clock alone. -/
def idle : Unit → Nat → Unit → Script Unit Unit :=
  fun _ _ world => .done world

/-- A caller that registers a periodic event. -/
def registerPump : Script Unit Unit :=
  .every 5 (ascii "pump") (some ()) fun _ => .done ()

/-- The clock with that event. -/
def pump (icount due : Nat) : Clock Unit where
  icount := icount
  nextDue := due
  queue := [0]
  live := [(1, 0)]
  nextID := 1
  nextSeq := 1
  events := [{ id := 1, name := ascii "pump", due, period := 5, seq := 0, fn := (), index := some 0 }]

theorem pump_fires :
    (pump 0 5).fireNext = some ({
      id := 1
      name := ascii "pump"
      due := 5
      period := 5
      seq := 0
      fn := ()
      index := some 0 }, .ok (), pump 5 10) := by
  with_unfolding_all decide

theorem pump_turns {d : Driven Unit Unit}
    (turns : Turns idle 7 { clock := pump 0 5, world := () } d) :
    d.clock = pump 0 5 ∨ d.clock = pump 5 10 := by
  induction turns with
  | start => exact .inl rfl
  | turn _ ready fired handled ih =>
      rcases ih with same | same
      · rw [same, pump_fires] at fired
        cases fired
        cases handled
        exact .inr rfl
      · rw [same] at ready
        cases ready

/-- The run of a pump, in batches of 3 and 4. -/
theorem batching_invisible_pump :
    ∃ ending, Invisible idle 3 4 { clock := pump 0 5, world := () } ending := by
  have registered : Clock.new.perform registerPump = .ok ((), pump 0 5) := by
    with_unfolding_all decide
  have start : Reachable idle (Fits idle) Clock.new () := .new ()
  have reached := start.script registerPump registered
  refine batching_invisible reached 3 4 (by decide) ?_
  intro d turns _ ev isHead _
  rcases pump_turns turns with same | same
  · rw [same] at isHead
    cases isHead
    decide
  · rw [same] at isHead
    cases isHead
    decide

/-- An event that is due late, next to what is left of a periodic one. -/
def lateEvents (pumpIndex timerIndex : Option Nat) : List (Event Unit) :=
  [{ id := 1, name := ascii "pump", due := 2 ^ 63, period := 2 ^ 63, seq := 0, fn := (),
      index := pumpIndex },
    { id := 2, name := ascii "timer", due := 2 ^ 63 + 10, period := 0, seq := 1, fn := (),
      index := timerIndex }]

/-- A caller that registers them. -/
def registerLate : Script Unit Unit :=
  .every (2 ^ 63) (ascii "pump") (some ()) fun _ =>
    .at_ (2 ^ 63 + 10) (ascii "timer") (some ()) fun _ => .done ()

/-- The clock with both.  The period fits into the counter only once. -/
def late : Clock Unit where
  nextDue := 2 ^ 63
  queue := [0, 1]
  live := [(2, 1), (1, 0)]
  nextID := 2
  nextSeq := 2
  events := lateEvents (some 0) (some 1)

/-- The same clock after the periodic event has outgrown the counter: the cached
next due instruction is still that event's. -/
def stale : Clock Unit where
  icount := 2 ^ 63
  nextDue := 2 ^ 63
  queue := [1]
  live := [(2, 1), (1, 0)]
  nextID := 2
  nextSeq := 2
  events := lateEvents none (some 0)

theorem stale_reachable : Reachable idle (fun _ _ => True) stale () := by
  have registered : Clock.new.perform registerLate = .ok ((), late) := by decide +kernel
  have start : Reachable idle (fun _ _ => True) Clock.new () := .new ()
  have reached := start.script registerLate registered
  -- The text of the error is not evaluated.
  have lost : late.fireNext.map (fun fired => (fired.2.1.toBool, fired.2.2)) =
      some (false, stale) := by
    with_unfolding_all decide
  obtain ⟨ev, error, outgrown⟩ :
      ∃ ev error, late.fireNext = some (ev, .error error, stale) := by
    match found : late.fireNext with
    | none => rw [found] at lost; cases lost
    | some (ev, .ok (), c) => rw [found] at lost; cases lost
    | some (ev, .error error, c) => rw [found] at lost; cases lost; exact ⟨ev, error, rfl⟩
  have ready : late.fireReady (2 ^ 63) = true := by decide
  have answered : Answers idle (.advance (2 ^ 63)) { clock := late, world := () }
      (.failed error { clock := stale, world := () }) := by
    have inRange : late.icount + 2 ^ 63 < countLimit := by decide
    have target : late.icount + 2 ^ 63 = 2 ^ 63 := Nat.zero_add _
    refine ⟨1, ?_⟩
    simp only [Driven.call, advance]
    rw [advanceTarget_ok inRange]
    simp only [fireDue, target, ready, outgrown, if_true]
  exact .call reached (.advance (2 ^ 63)) True.intro answered rfl

/-- `Tick` only counts, because the stale instruction is not the next one. -/
theorem stale_ticks {d : Driven Unit Unit}
    (returned : Returns idle .tick { clock := stale, world := () } d) : d.fired = [] := by
  obtain ⟨fuel, returned⟩ := returned
  have inRange : stale.icount + 1 < countLimit := by decide
  have notDue : ¬ stale.icount + 1 = stale.nextDue := by decide
  simp only [Driven.call] at returned
  rw [tick_eq inRange, if_neg notDue] at returned
  cases returned
  rfl

theorem stale_ticks_return {clock : Clock Unit} {fired : List Firing} :
    ¬ Answers idle .tick { clock := stale, world := () } (.panicked clock fired) := by
  rintro ⟨fuel, panicked⟩
  have inRange : stale.icount + 1 < countLimit := by decide
  have notDue : ¬ stale.icount + 1 = stale.nextDue := by decide
  simp only [Driven.call] at panicked
  rw [tick_eq inRange, if_neg notDue] at panicked
  cases panicked

/-- The clock when the later event has fired early. -/
def early : Clock Unit where
  icount := 2 ^ 63 + 10
  live := [(1, 0)]
  nextID := 2
  nextSeq := 2
  events := lateEvents none none

theorem stale_fires :
    stale.fireNext = some ({
      id := 2
      name := ascii "timer"
      due := 2 ^ 63 + 10
      period := 0
      seq := 1
      fn := ()
      index := some 0 }, .ok (), early) := by
  with_unfolding_all decide

/-- `Advance` fires the event that is due later. -/
theorem stale_advances {d : Driven Unit Unit}
    (returned : Returns idle (.advance 1) { clock := stale, world := () } d) :
    d.fired = [⟨2, 2 ^ 63 + 10, 1⟩] := by
  have inRange : stale.icount + 1 < countLimit := by decide
  have ready : stale.fireReady (stale.icount + 1) = true := by decide
  have clean : (Ending.returned d).Clean := trivial
  have fires := (answers_advance_iff clean inRange).mp returned
  cases fires with
  | finish done => rw [ready] at done; cases done
  | turn _ fired handled rest =>
      rw [stale_fires] at fired
      cases fired
      cases handled
      cases rest with
      | finish _ => rfl
      | turn emptyReady _ _ _ => cases emptyReady

/-- `Tick` and `Advance(1)` part at a reachable clock. -/
theorem batching_visible :
    ¬ ∀ (clock : Clock Unit) (world : Unit), Reachable idle (fun _ _ => True) clock world →
      ∀ a b, clock.icount + (a + b) < countLimit →
        ∃ ending, Invisible idle a b { clock, world } ending := by
  intro claimed
  obtain ⟨ending, invisible⟩ := claimed stale () stale_reachable 1 0 (by decide)
  cases invisible.ticks with
  | cons ticked rest =>
      cases rest
      cases invisible.whole with
      | cons advanced rest =>
          cases rest
          have firedNow := stale_advances advanced
          rw [stale_ticks ticked] at firedNow
          cases firedNow
  | panic panicked => exact stale_ticks_return panicked

end Driven

end GoRetroTv
