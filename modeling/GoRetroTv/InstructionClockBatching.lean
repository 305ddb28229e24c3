import GoRetroTv.InstructionClockSchedule

/-!
# Batches of instructions

`Tick`, `Advance` and the loop around `Budget`, with handlers that run.  A
handler here is a program over the clock and a world of its own: it may
schedule, cancel and look at the clock, and it returns no error, though a call of
`Cancel` may panic.  However a run of instructions is cut into batches, the same
events fire.
-/

namespace GoRetroTv

/-- What a handler, or the caller, does with the clock, one call after another.
Each call's results decide what comes next. -/
inductive Script (H W : Type) where
  | done (world : W)
  | at_ (due : DoubleWord) (name : List Byte) (fn : Option H)
      (next : Except String Nat → Script H W)
  | after (delta : DoubleWord) (name : List Byte) (fn : Option H)
      (next : Except String Nat → Script H W)
  | every (period : DoubleWord) (name : List Byte) (fn : Option H)
      (next : Except String Nat → Script H W)
  | cancel (id : Nat) (next : Bool → Script H W)
  | look (next : Nat → Nat → Option Nat → Script H W)

/-- An event that fired, and when. -/
structure Firing where
  id : Nat
  now : Nat
  seq : Nat
  deriving DecidableEq

namespace Clock

variable {H W : Type}

/-- `Pending`. -/
def pendingCount (c : Clock H) : Nat :=
  c.live.length

/-- `NextDue`. -/
def nextDue? (c : Clock H) : Option Nat :=
  if c.queue.length = 0 then none else some c.nextDue

/-- `Budget`, with its wrapping subtraction. -/
def budget (max : Nat) (c : Clock H) : Nat :=
  if max = 0 then 0
  else
    match c.nextDue? with
    | none => max
    | some due =>
        let gap := (due + countLimit - c.icount) % countLimit
        if gap < max then gap else max

/-- `RestoreTo`. -/
def restoreTo (icount : Nat) (c : Clock H) : Clock H :=
  { c with queue := [], live := [], icount, nextDue := noneDue }

/-- `Reset`. -/
def reset (c : Clock H) : Clock H :=
  c.restoreTo 0

/-- A script's calls, in turn.  An error is the clock that a panic leaves. -/
def perform : Script H W → Clock H → Except (Clock H) (W × Clock H)
  | .done world, c => .ok (world, c)
  | .at_ due name fn next, c =>
      let (result, c) := c.at_ due.toNat name fn
      perform (next result) c
  | .after delta name fn next, c =>
      let (result, c) := c.after delta.toNat name fn
      perform (next result) c
  | .every period name fn next, c =>
      let (result, c) := c.every period.toNat name fn
      perform (next result) c
  | .cancel id next, c =>
      match c.cancel id with
      | .error c => .error c
      | .ok (found, c) => perform (next found) c
  | .look next, c => perform (next c.icount c.pendingCount c.nextDue?) c

end Clock

/-- A clock with its handlers' world and the events fired so far. -/
structure Driven (H W : Type) where
  clock : Clock H
  world : W
  fired : List Firing := []

/-- How a call ends, or a run of calls.  Behind a panic are the clock it leaves and
the events fired up to it, the one whose handler was running included. -/
inductive Ending (H W : Type) where
  | returned (d : Driven H W)
  | failed (error : String) (d : Driven H W)
  | panicked (clock : Clock H) (fired : List Firing)

namespace Ending

variable {H W : Type}

/-- Where the caller goes on.  Nothing recovers from a panic. -/
def state : Ending H W → Option (Driven H W)
  | .returned d => some d
  | .failed _ d => some d
  | .panicked _ _ => none

def fired : Ending H W → List Firing
  | .returned d => d.fired
  | .failed _ d => d.fired
  | .panicked _ fired => fired

/-- No error was returned. -/
def Clean : Ending H W → Prop
  | .returned _ => True
  | .failed _ _ => False
  | .panicked _ _ => True

end Ending

namespace Driven

variable {H W : Type}

/-- The call of a handler, after its event has been taken off. -/
def handle (run : H → Nat → W → Script H W) (ev : Event H) (clock : Clock H) (d : Driven H W) :
    Ending H W :=
  let fired := d.fired ++ [⟨ev.id, clock.icount, ev.seq⟩]
  match clock.perform (run ev.fn clock.icount d.world) with
  | .ok (world, clock) => .returned { clock, world, fired }
  | .error clock => .panicked clock fired

def withIcount (icount : Nat) (d : Driven H W) : Driven H W :=
  { d with clock := { d.clock with icount } }

section

-- What each handler does when it is called at an instruction.
variable (run : H → Nat → W → Script H W)

/-- `fireDue`, for as many turns of its loop as there is fuel. -/
def fireDue (target : Nat) : Nat → Driven H W → Option (Ending H W)
  | 0, _ => none
  | fuel + 1, d =>
      if d.clock.fireReady target then
        match d.clock.fireNext with
        | none => none
        | some (_, .error error, clock) => some (.failed error { d with clock })
        | some (ev, .ok (), clock) =>
            match d.handle run ev clock with
            | .returned d => fireDue target fuel d
            | ending => some ending
      else some (.returned (d.withIcount target))

/-- `Tick`. -/
def tick (fuel : Nat) (d : Driven H W) : Option (Ending H W) :=
  match d.clock.countTick with
  | (.error error, clock) => some (.failed error { d with clock })
  | (.ok none, clock) => some (.returned { d with clock })
  | (.ok (some target), clock) => fireDue run target fuel { d with clock }

/-- `Advance`. -/
def advance (n fuel : Nat) (d : Driven H W) : Option (Ending H W) :=
  match d.clock.advanceTarget n with
  | .error error => some (.failed error d)
  | .ok target => fireDue run target fuel d

end

/-- A call of the instruction loop. -/
inductive Call where
  | tick
  | advance (n : Nat)

/-- The instructions a call counts. -/
def Call.length : Call → Nat
  | .tick => 1
  | .advance n => n

def total (calls : List Call) : Nat :=
  (calls.map Call.length).sum

section

variable (run : H → Nat → W → Script H W)

def call (fuel : Nat) (c : Call) (d : Driven H W) : Option (Ending H W) :=
  match c with
  | .tick => tick run fuel d
  | .advance n => advance run n fuel d

/-- A call ends, in whatever way. -/
def Answers (c : Call) (d : Driven H W) (ending : Ending H W) : Prop :=
  ∃ fuel, call run fuel c d = some ending

/-- A call returns without an error. -/
def Returns (c : Call) (d d' : Driven H W) : Prop :=
  Answers run c d (.returned d')

/-- Calls one after the other, all without an error, up to the last or to one that
panics. -/
inductive Performs : List Call → Driven H W → Ending H W → Prop where
  | nil {d : Driven H W} : Performs [] d (.returned d)
  | cons {c : Call} {calls : List Call} {d d' : Driven H W} {ending : Ending H W}
      (returned : Returns run c d d') (rest : Performs calls d' ending) :
      Performs (c :: calls) d ending
  | panic {c : Call} {calls : List Call} {d : Driven H W} {clock : Clock H} {fired : List Firing}
      (panicked : Answers run c d (.panicked clock fired)) :
      Performs (c :: calls) d (.panicked clock fired)

/-- The instruction loop: advance by some part of the budget, until a number of
instructions has run or a call panics. -/
inductive Budgeted (max : Nat) : Nat → Driven H W → Ending H W → Prop where
  | done {d : Driven H W} : Budgeted max 0 d (.returned d)
  | batch {n rest : Nat} {d d' : Driven H W} {ending : Ending H W}
      (within : n ≤ d.clock.budget max) (returned : Returns run (.advance n) d d')
      (more : Budgeted max rest d' ending) : Budgeted max (n + rest) d ending
  | panic {n rest : Nat} {d : Driven H W} {clock : Clock H} {fired : List Firing}
      (within : n ≤ d.clock.budget max)
      (panicked : Answers run (.advance n) d (.panicked clock fired)) :
      Budgeted max (n + rest) d (.panicked clock fired)

/-- The states in which `fireDue` comes to the guard of its loop. -/
inductive Turns (target : Nat) (d : Driven H W) : Driven H W → Prop where
  | start : Turns target d d
  | turn {d' d'' : Driven H W} (before : Turns target d d')
      (ready : d'.clock.fireReady target = true) {ev : Event H} {clock : Clock H}
      (fired : d'.clock.fireNext = some (ev, .ok (), clock))
      (handled : d'.handle run ev clock = .returned d'') : Turns target d d''

/-- Every periodic event that fires up to the target has a next due
instruction. -/
def Fits (target : Nat) (d : Driven H W) : Prop :=
  ∀ d', Turns run target d d' → d'.clock.fireReady target = true → d'.clock.NextFits

/-- The clocks and worlds of every run whose calls meet a condition on the target
and the state before.  A script stands for whatever the caller does. -/
inductive Reachable (condition : Nat → Driven H W → Prop) : Clock H → W → Prop where
  | new (world : W) : Reachable condition Clock.new world
  | script {clock clock' : Clock H} {world world' : W} (before : Reachable condition clock world)
      (script : Script H W) (performed : clock.perform script = .ok (world', clock')) :
      Reachable condition clock' world'
  | call {clock : Clock H} {world : W} (before : Reachable condition clock world) (c : Call)
      (met : condition (clock.icount + c.length) { clock, world })
      {ending : Ending H W} {d : Driven H W} (answered : Answers run c { clock, world } ending)
      (left : ending.state = some d) : Reachable condition d.clock d.world
  | restore {clock : Clock H} {world : W} (before : Reachable condition clock world)
      {blob : List Byte} {handlers : List Byte → Option H} {restored : Clock H}
      (accepted : clock.restore blob handlers = .ok restored) : Reachable condition restored world
  | restoreTo {clock : Clock H} {world : W} (before : Reachable condition clock world)
      (icount : DoubleWord) : Reachable condition (clock.restoreTo icount.toNat) world

/-- However `a + b` instructions are cut into batches, the same events fire at
the same counts in the same order and the same clock is left, and if a call in a
handler panics it is the same one, of the same clock. -/
structure Invisible (a b : Nat) (d : Driven H W) (ending : Ending H W) : Prop where
  whole : Performs run [.advance (a + b)] d ending
  split : Performs run [.advance a, .advance b] d ending
  ticks : Performs run (List.replicate (a + b) .tick) d ending
  budgeted : ∀ max, 0 < max → Budgeted run max (a + b) d ending
  unique : ∀ max ending', Budgeted run max (a + b) d ending' → ending' = ending
  sorted : (ending.fired.map fun firing => toLex (firing.now, firing.seq)).Pairwise (· ≤ ·)

end

end Driven

namespace Clock

variable {H W : Type}

theorem Sound.perform {c c' : Clock H} {world : W} (sound : c.Sound) {script : Script H W}
    (performed : c.perform script = .ok (world, c')) : c'.Sound ∧ Rescheduled c c' := by
  induction script generalizing c with
  | done world =>
      cases performed
      exact ⟨sound, .refl _⟩
  | at_ due name fn next ih =>
      obtain ⟨sound', first⟩ := sound.at_ due.isLt name fn
      obtain ⟨sound'', rest⟩ := ih _ sound' performed
      exact ⟨sound'', first.trans rest⟩
  | after delta name fn next ih =>
      obtain ⟨sound', first⟩ := sound.after delta.toNat name fn
      obtain ⟨sound'', rest⟩ := ih _ sound' performed
      exact ⟨sound'', first.trans rest⟩
  | every period name fn next ih =>
      obtain ⟨sound', first⟩ := sound.every period.toNat name fn
      obtain ⟨sound'', rest⟩ := ih _ sound' performed
      exact ⟨sound'', first.trans rest⟩
  | cancel id next ih =>
      rw [Clock.perform] at performed
      split at performed
      · cases performed
      next found after cancelled =>
        obtain ⟨sound', first⟩ := sound.cancel cancelled
        obtain ⟨sound'', rest⟩ := ih _ sound' performed
        exact ⟨sound'', first.trans rest⟩
  | look next ih => exact ih _ _ _ sound performed

theorem Steady.perform {c c' : Clock H} {world : W} (steady : c.Steady) {script : Script H W}
    (performed : c.perform script = .ok (world, c')) : c'.Steady := by
  obtain ⟨sound, rescheduled⟩ := steady.toSound.perform performed
  exact { sound with later := rescheduled.later steady.later }

/-- How many events are due at the count itself. -/
def dueNow (c : Clock H) : Nat :=
  c.keys.countP fun key => decide (key.1 = c.icount)

theorem Rescheduled.dueNow_le {c c' : Clock H} (rescheduled : Rescheduled c c') :
    c'.dueNow ≤ c.dueNow := by
  obtain ⟨added, later, keys⟩ := rescheduled.keys
  have none : added.countP (fun key => decide (key.1 = c.icount)) = 0 := by
    rw [List.countP_eq_zero]
    intro key member
    have := (later key member).1
    simp
    omega
  unfold dueNow
  rw [rescheduled.icount]
  refine (keys.countP_le _).trans ?_
  rw [List.countP_append, none, Nat.zero_add]

/-- What a turn of the loop does to the clock before the handler is called: the event with
the least key has left the queue, and a periodic one is back in it, due later. -/
structure Fired (c c' : Clock H) (ev : Event H) (rest added : List (Nat × Nat)) : Prop where
  icount : c'.icount = ev.due
  taken : ((ev.due, ev.seq) :: rest).Perm c.keys
  keys : c'.keys.Perm (added ++ rest)
  later : ∀ key ∈ added, ev.due < key.1
  least : ∀ key ∈ c.keys, toLex (ev.due, ev.seq) ≤ toLex key

section

variable {c c' : Clock H} {ev : Event H} {rest added : List (Nat × Nat)}

theorem Fired.inQueue (fired : Fired c c' ev rest added) : (ev.due, ev.seq) ∈ c.keys :=
  fired.taken.subset (List.mem_cons_self ..)

/-- An event that fires at the count leaves one fewer due there. -/
theorem Fired.dueNow (fired : Fired c c' ev rest added) (same : ev.due = c.icount) :
    c'.dueNow + 1 = c.dueNow := by
  have noneAdded : added.countP (fun key => decide (key.1 = c.icount)) = 0 := by
    rw [List.countP_eq_zero]
    intro key member
    have := fired.later key member
    simp
    omega
  unfold Clock.dueNow
  rw [fired.icount, same, fired.keys.countP_eq, ← fired.taken.countP_eq, List.countP_append,
    noneAdded, Nat.zero_add, List.countP_cons_of_pos (by simpa using same)]

end

theorem swap_withIcount (c : Clock H) (icount i j : Nat) :
    ({ c with icount } : Clock H).swap i j = { c.swap i j with icount } := by
  unfold swap
  dsimp only
  split <;> rfl

theorem popQueue_withIcount (c : Clock H) (icount : Nat) :
    ({ c with icount } : Clock H).popQueue =
      c.popQueue.map fun popped => (popped.1, { popped.2 with icount }) := by
  have simulates (n : Nat) : HeapInterface.Simulates heap heap n
      (fun (s t : Clock H) => t = { s with icount }) := by
    constructor
    · rintro s t i j rfl _ _
      rfl
    · rintro s t i j rfl _ _
      exact swap_withIcount s icount i j
  have sifted : heap.popSift ({ c with icount } : Clock H) =
      { heap.popSift c with icount } :=
    (simulates _).down (swap_withIcount c icount 0 _)
  unfold popQueue
  dsimp only
  split
  · rfl
  · rw [sifted]
    dsimp only
    split <;> rfl

theorem fireNext_withIcount (c : Clock H) (icount : Nat) :
    ({ c with icount } : Clock H).fireNext = c.fireNext := by
  unfold fireNext
  rw [popQueue_withIcount]
  cases c.popQueue <;> rfl

end Clock

namespace Driven

variable {H W : Type} {run : H → Nat → W → Script H W} {target : Nat}

/-- What a handler's call comes to. -/
theorem handle_cases (d : Driven H W) (ev : Event H) (clock : Clock H) :
    (∃ world after, clock.perform (run ev.fn clock.icount d.world) = .ok (world, after) ∧
      d.handle run ev clock = .returned {
        clock := after
        world
        fired := d.fired ++ [⟨ev.id, clock.icount, ev.seq⟩] }) ∨
      ∃ after, d.handle run ev clock =
        .panicked after (d.fired ++ [⟨ev.id, clock.icount, ev.seq⟩]) := by
  unfold handle
  cases clock.perform (run ev.fn clock.icount d.world) with
  | ok performed => exact .inl ⟨_, _, rfl, rfl⟩
  | error after => exact .inr ⟨_, rfl⟩

/-- `fireDue` ends without an error. -/
inductive FiresTo (run : H → Nat → W → Script H W) (target : Nat) :
    Driven H W → Ending H W → Prop where
  | finish {d : Driven H W} (done : d.clock.fireReady target = false) :
      FiresTo run target d (.returned (d.withIcount target))
  | turn {d d' : Driven H W} {ending : Ending H W} (ready : d.clock.fireReady target = true)
      {ev : Event H} {clock : Clock H} (fired : d.clock.fireNext = some (ev, .ok (), clock))
      (handled : d.handle run ev clock = .returned d') (rest : FiresTo run target d' ending) :
      FiresTo run target d ending
  | panic {d : Driven H W} (ready : d.clock.fireReady target = true) {ev : Event H}
      {clock : Clock H} (fired : d.clock.fireNext = some (ev, .ok (), clock)) {after : Clock H}
      {firings : List Firing} (handled : d.handle run ev clock = .panicked after firings) :
      FiresTo run target d (.panicked after firings)

theorem FiresTo.clean {d : Driven H W} {ending : Ending H W}
    (fires : FiresTo run target d ending) : ending.Clean := by
  induction fires with
  | finish => trivial
  | turn _ _ _ _ ih => exact ih
  | panic => trivial

theorem fireDue_iff {d : Driven H W} {ending : Ending H W} (clean : ending.Clean) :
    (∃ fuel, fireDue run target fuel d = some ending) ↔ FiresTo run target d ending := by
  constructor
  · rintro ⟨fuel, ended⟩
    induction fuel generalizing d with
    | zero => cases ended
    | succ fuel ih =>
        rw [fireDue] at ended
        split at ended
        next ready =>
          split at ended
          · cases ended
          · cases ended
            exact clean.elim
          next ev clock fired =>
            rcases @handle_cases _ _ run d ev clock with ⟨_, _, _, handled⟩ | ⟨_, handled⟩
            · rw [handled] at ended
              exact .turn ready fired handled (ih ended)
            · rw [handled] at ended
              cases ended
              exact .panic ready fired handled
        next notReady =>
          cases ended
          exact .finish (by simpa using notReady)
  · intro fires
    induction fires with
    | finish done => exact ⟨1, by simp [fireDue, done]⟩
    | turn ready fired handled _ ih =>
        obtain ⟨fuel, ended⟩ := ih clean
        exact ⟨fuel + 1, by simp [fireDue, ready, fired, handled, ended]⟩
    | panic ready fired handled => exact ⟨1, by simp [fireDue, ready, fired, handled]⟩

theorem FiresTo.unique {d : Driven H W} {first second : Ending H W}
    (fires : FiresTo run target d first) (other : FiresTo run target d second) :
    first = second := by
  induction fires with
  | finish done =>
      cases other with
      | finish _ => rfl
      | turn ready _ _ _ => simp [done] at ready
      | panic ready _ _ => simp [done] at ready
  | turn ready fired handled _ ih =>
      cases other with
      | finish done => simp [done] at ready
      | turn _ otherFired otherHandled rest =>
          cases fired.symm.trans otherFired
          cases handled.symm.trans otherHandled
          exact ih rest
      | panic _ otherFired otherHandled =>
          cases fired.symm.trans otherFired
          cases handled.symm.trans otherHandled
  | panic ready fired handled =>
      cases other with
      | finish done => simp [done] at ready
      | turn _ otherFired otherHandled _ =>
          cases fired.symm.trans otherFired
          cases handled.symm.trans otherHandled
      | panic _ otherFired otherHandled =>
          cases fired.symm.trans otherFired
          cases handled.symm.trans otherHandled
          rfl

theorem fireReady_mono {c : Clock H} {first second : Nat} (le : first ≤ second)
    (ready : c.fireReady first = true) : c.fireReady second = true := by
  simp only [Clock.fireReady, Bool.and_eq_true, decide_eq_true_eq] at ready ⊢
  exact ⟨ready.1, ready.2.trans le⟩

/-- The count `fireDue` starts at does not matter. -/
theorem firesTo_withIcount {d : Driven H W} {ending : Ending H W} (icount : Nat) :
    FiresTo run target (d.withIcount icount) ending ↔ FiresTo run target d ending := by
  have same (ev : Event H) (clock : Clock H) :
      (d.withIcount icount).clock.fireNext = some (ev, .ok (), clock) ↔
        d.clock.fireNext = some (ev, .ok (), clock) := by
    rw [withIcount, Clock.fireNext_withIcount]
  constructor
  · intro fires
    cases fires with
    | finish done => exact .finish (d := d) done
    | turn ready fired handled rest => exact .turn ready ((same _ _).mp fired) handled rest
    | panic ready fired handled => exact .panic (d := d) ready ((same _ _).mp fired) handled
  · intro fires
    cases fires with
    | finish done => exact .finish (d := d.withIcount icount) done
    | turn ready fired handled rest =>
        exact .turn (d := d.withIcount icount) ready ((same _ _).mpr fired) handled rest
    | panic ready fired handled =>
        exact .panic (d := d.withIcount icount) ready ((same _ _).mpr fired) handled

/-- Firing to a target is firing to an earlier one first. -/
theorem FiresTo.split {first second : Nat} (le : first ≤ second) {d middle : Driven H W}
    (fires : FiresTo run first d (.returned middle)) (ending : Ending H W) :
    FiresTo run second d ending ↔ FiresTo run second middle ending := by
  generalize isReturned : Ending.returned middle = returned at fires
  induction fires with
  | finish done =>
      cases isReturned
      exact (firesTo_withIcount first).symm
  | turn ready fired handled _ ih =>
      rw [← ih isReturned]
      constructor
      · intro whole
        cases whole with
        | finish done => simp [fireReady_mono le ready] at done
        | turn _ otherFired otherHandled rest =>
            cases fired.symm.trans otherFired
            cases handled.symm.trans otherHandled
            exact rest
        | panic _ otherFired otherHandled =>
            cases fired.symm.trans otherFired
            cases handled.symm.trans otherHandled
      · exact fun rest => .turn (fireReady_mono le ready) fired handled rest
  | panic => cases isReturned

/-- A panic on the way to a target is one on the way to a later one. -/
theorem FiresTo.panicked {first second : Nat} (le : first ≤ second) {d : Driven H W}
    {after : Clock H} {firings : List Firing}
    (fires : FiresTo run first d (.panicked after firings)) :
    FiresTo run second d (.panicked after firings) := by
  generalize isPanicked : Ending.panicked after firings = panicked at fires
  induction fires with
  | finish => cases isPanicked
  | turn ready fired handled _ ih =>
      exact .turn (fireReady_mono le ready) fired handled (ih isPanicked)
  | panic ready fired handled =>
      exact .panic (fireReady_mono le ready) fired handled

/-- The events fired so far are in order, and everything queued comes later. -/
structure Sorted (d : Driven H W) : Prop where
  sorted : (d.fired.map fun firing => toLex (firing.now, firing.seq)).Pairwise (· ≤ ·)
  past : ∀ firing ∈ d.fired, firing.now ≤ d.clock.icount
  before : ∀ firing ∈ d.fired, ∀ key ∈ d.clock.keys, toLex (firing.now, firing.seq) ≤ toLex key

theorem ready_bounds {c : Clock H} (ready : c.fireReady target = true) :
    0 < c.queue.length ∧ c.nextDue ≤ target := by
  simpa [Clock.fireReady] using ready

section

variable {d : Driven H W} {ev : Event H} {clock after : Clock H} {rest added : List (Nat × Nat)}

/-- The event of a turn comes after those that have fired. -/
theorem Sorted.fire (sorted : d.Sorted) (fires : d.clock.Fired clock ev rest added) (id : Nat) :
    ((d.fired ++ [(⟨id, clock.icount, ev.seq⟩ : Firing)]).map fun firing =>
      toLex (firing.now, firing.seq)).Pairwise (· ≤ ·) := by
  simp only [List.map_append, List.map_cons, List.map_nil]
  rw [List.pairwise_append]
  refine ⟨sorted.sorted, List.pairwise_singleton _ _, ?_⟩
  intro earlier isEarlier last isLast
  obtain ⟨firing, member, rfl⟩ := List.mem_map.mp isEarlier
  rw [List.mem_singleton.mp isLast, fires.icount]
  exact sorted.before firing member _ fires.inQueue

/-- And before those that are queued when its handler returns. -/
theorem Sorted.turned (sorted : d.Sorted) (fires : d.clock.Fired clock ev rest added)
    (waited : d.clock.icount ≤ ev.due) (rescheduled : clock.Rescheduled after) (id : Nat)
    (world : W) :
    Sorted { clock := after, world, fired := d.fired ++ [⟨id, clock.icount, ev.seq⟩] } := by
  have past : ∀ firing ∈ d.fired ++ [⟨id, clock.icount, ev.seq⟩], firing.now ≤ ev.due := by
    intro firing member
    rcases List.mem_append.mp member with earlier | last
    · exact (sorted.past firing earlier).trans waited
    · rw [List.mem_singleton.mp last, fires.icount]
  refine ⟨sorted.fire fires id, ?_, ?_⟩
  · intro firing member
    rw [rescheduled.icount, fires.icount]
    exact past firing member
  · intro firing member other isQueued
    -- What is queued was queued before, or is due after this turn.
    have later (isLater : ev.due < other.1) : toLex (firing.now, firing.seq) ≤ toLex other :=
      (Prod.Lex.toLex_lt_toLex.mpr (.inl (lt_of_le_of_lt (past firing member) isLater))).le
    rcases rescheduled.mem isQueued with isLater | before
    · exact later (fires.icount ▸ isLater)
    · rcases List.mem_append.mp (fires.keys.subset before) with isNew | isOld
      · exact later (fires.later other isNew)
      · have old : other ∈ d.clock.keys := fires.taken.subset (List.mem_cons_of_mem _ isOld)
        rcases List.mem_append.mp member with earlier | last
        · exact sorted.before firing earlier other old
        · rw [List.mem_singleton.mp last, fires.icount]
          exact fires.least other old

/-- A handler that returns has performed its script. -/
theorem handle_returned {d' : Driven H W} (returned : d.handle run ev clock = .returned d') :
    ∃ world after, clock.perform (run ev.fn clock.icount d.world) = .ok (world, after) ∧
      d' = { clock := after, world, fired := d.fired ++ [⟨ev.id, clock.icount, ev.seq⟩] } := by
  rcases @handle_cases _ _ run d ev clock with ⟨world, after, performed, handled⟩ | ⟨_, handled⟩
  · cases returned.symm.trans handled
    exact ⟨world, after, performed, rfl⟩
  · cases returned.symm.trans handled

end

/-- What one turn does: it succeeds and what has fired stays in order.  If the
handler returns, time does not run back, and either the count moves on or fewer
events are due at it. -/
theorem turn_spec {d : Driven H W} (sound : d.clock.Sound)
    (ready : d.clock.fireReady target = true) (fits : d.clock.NextFits) :
    ∃ ev clock, d.clock.fireNext = some (ev, .ok (), clock) ∧
      (d.Sorted → ((d.fired ++ [(⟨ev.id, clock.icount, ev.seq⟩ : Firing)]).map fun firing =>
        toLex (firing.now, firing.seq)).Pairwise (· ≤ ·)) ∧
      ∀ d', d.handle run ev clock = .returned d' → d'.clock.Sound ∧
        (target - d'.clock.icount < target - d.clock.icount ∨
          d'.clock.icount = d.clock.icount ∧ d'.clock.dueNow < d.clock.dueNow) ∧
        (d.Sorted → d'.Sorted) := by
  obtain ⟨nonempty, inTime⟩ := ready_bounds ready
  obtain ⟨ev, clock, rest, added, fired, sound', icount, due, taken, keys, later, least⟩ :=
    sound.fireNext nonempty fits
  rw [← due] at icount inTime
  rw [icount] at later
  have fires : d.clock.Fired clock ev rest added := { icount, taken, keys, later, least }
  have waited : d.clock.icount ≤ ev.due := sound.waits _ fires.inQueue
  refine ⟨ev, clock, fired, fun sorted => sorted.fire fires ev.id, fun d' returned => ?_⟩
  obtain ⟨world, after, performed, rfl⟩ := handle_returned returned
  obtain ⟨sound'', rescheduled⟩ := sound'.perform performed
  refine ⟨sound'', ?_, fun sorted => sorted.turned fires waited rescheduled ev.id world⟩
  dsimp only
  rw [rescheduled.icount, icount]
  rcases Nat.lt_or_ge d.clock.icount ev.due with moves | stays
  · left
    omega
  · right
    have same : ev.due = d.clock.icount := by omega
    have fewer := rescheduled.dueNow_le
    have left := fires.dueNow same
    exact ⟨same, by omega⟩

theorem Turns.head {d middle d' : Driven H W} (ready : d.clock.fireReady target = true)
    {ev : Event H} {clock : Clock H} (fired : d.clock.fireNext = some (ev, .ok (), clock))
    (handled : d.handle run ev clock = .returned middle) (turns : Turns run target middle d') :
    Turns run target d d' := by
  induction turns with
  | start => exact .turn .start ready fired handled
  | turn _ ready fired handled ih => exact .turn ih ready fired handled

theorem Fits.turn {d d' : Driven H W} (fits : Fits run target d)
    (ready : d.clock.fireReady target = true) {ev : Event H} {clock : Clock H}
    (fired : d.clock.fireNext = some (ev, .ok (), clock))
    (handled : d.handle run ev clock = .returned d') : Fits run target d' :=
  fun last turns => fits last (turns.head ready fired handled)

/-- A sound clock reaches its target or a panic: there are only so many events due
at one count, and a handler cannot add any. -/
theorem exists_firesTo {d : Driven H W} (sound : d.clock.Sound) (fits : Fits run target d) :
    ∃ ending, FiresTo run target d ending := by
  by_cases ready : d.clock.fireReady target = true
  · obtain ⟨ev, clock, fired, _, turn⟩ :=
      @turn_spec _ _ run _ _ sound ready (fits d .start ready)
    rcases @handle_cases _ _ run d ev clock with ⟨world, after, _, handled⟩ | ⟨after, handled⟩
    · generalize ({ clock := after, world, fired := _ } : Driven H W) = d' at handled
      obtain ⟨sound', progress, _⟩ := turn _ handled
      have decreases : Prod.Lex (· < ·) (· < ·)
          (target - d'.clock.icount, d'.clock.dueNow)
          (target - d.clock.icount, d.clock.dueNow) := by
        rcases progress with moves | ⟨stays, fewer⟩
        · exact .left _ _ moves
        · rw [stays]
          exact .right _ fewer
      obtain ⟨ending, rest⟩ := exists_firesTo sound' (fits.turn ready fired handled)
      exact ⟨ending, .turn ready fired handled rest⟩
    · exact ⟨_, .panic ready fired handled⟩
  · exact ⟨_, .finish (by simpa using ready)⟩
termination_by (target - d.clock.icount, d.clock.dueNow)
decreasing_by exact decreases

/-- What a completed `fireDue` leaves. -/
theorem FiresTo.spec {d d' : Driven H W} (fires : FiresTo run target d (.returned d'))
    (sound : d.clock.Sound) (fits : Fits run target d) :
    d'.clock.Steady ∧ d'.clock.icount = target ∧
      ∃ last, Turns run target d last ∧ d' = last.withIcount target := by
  generalize isReturned : Ending.returned d' = returned at fires
  induction fires with
  | @finish d done =>
      cases isReturned
      exact ⟨sound.finish done, rfl, d, .start, rfl⟩
  | @turn d _ _ ready ev clock fired handled rest ih =>
      obtain ⟨_, _, fired', _, turn⟩ :=
        @turn_spec _ _ run _ _ sound ready (fits d .start ready)
      cases fired.symm.trans fired'
      obtain ⟨steady, icount, last, turns, isLast⟩ :=
        ih (turn _ handled).1 (fits.turn ready fired handled) isReturned
      exact ⟨steady, icount, last, turns.head ready fired handled, isLast⟩
  | panic => cases isReturned

/-- The events that `fireDue` fires are in order, whether or not it panics. -/
theorem FiresTo.inOrder {d : Driven H W} {ending : Ending H W}
    (fires : FiresTo run target d ending) (sound : d.clock.Sound) (fits : Fits run target d)
    (sorted : d.Sorted) :
    (ending.fired.map fun firing => toLex (firing.now, firing.seq)).Pairwise (· ≤ ·) := by
  induction fires with
  | finish => exact sorted.sorted
  | @turn d _ _ ready ev clock fired handled rest ih =>
      obtain ⟨_, _, fired', _, turn⟩ :=
        @turn_spec _ _ run _ _ sound ready (fits d .start ready)
      cases fired.symm.trans fired'
      obtain ⟨sound', _, sorted'⟩ := turn _ handled
      exact ih sound' (fits.turn ready fired handled) (sorted' sorted)
  | @panic d ready ev clock fired after firings handled =>
      obtain ⟨_, _, fired', inOrder, _⟩ :=
        @turn_spec _ _ run _ _ sound ready (fits d .start ready)
      cases fired.symm.trans fired'
      rcases @handle_cases _ _ run d ev clock with ⟨_, _, _, other⟩ | ⟨_, other⟩
      · cases handled.symm.trans other
      · cases handled.symm.trans other
        exact inOrder sorted

theorem Turns.mono {first second : Nat} (le : first ≤ second) {d d' : Driven H W}
    (turns : Turns run first d d') : Turns run second d d' := by
  induction turns with
  | start => exact .start
  | turn _ ready fired handled ih => exact .turn ih (fireReady_mono le ready) fired handled

theorem Turns.trans {d middle d' : Driven H W} (before : Turns run target d middle)
    (after : Turns run target middle d') : Turns run target d d' := by
  induction after with
  | start => exact before
  | turn _ ready fired handled ih => exact .turn ih ready fired handled

theorem Turns.of_withIcount {d d' : Driven H W} {icount : Nat}
    (turns : Turns run target (d.withIcount icount) d') :
    d' = d.withIcount icount ∨ Turns run target d d' := by
  induction turns with
  | start => exact .inl rfl
  | @turn middle _ _ ready ev clock fired handled ih =>
      right
      rcases ih with rfl | before
      · have fired' : d.clock.fireNext = some (ev, .ok (), clock) :=
          (Clock.fireNext_withIcount d.clock icount).symm.trans fired
        have ready' : d.clock.fireReady target = true := ready
        exact .turn .start ready' fired' handled
      · exact .turn before ready fired handled

theorem Fits.mono {first second : Nat} (le : first ≤ second) {d : Driven H W}
    (fits : Fits run second d) : Fits run first d :=
  fun d' turns ready => fits d' (turns.mono le) (fireReady_mono le ready)

theorem Fits.withIcount {d : Driven H W} (fits : Fits run target d) (icount : Nat) :
    Fits run target (d.withIcount icount) := by
  intro d' turns ready
  rcases turns.of_withIcount with rfl | later
  · exact fits d .start ready
  · exact fits d' later ready

/-- What fits as a whole fits after a part of it. -/
theorem Fits.after {first second : Nat} (le : first ≤ second) {d middle : Driven H W}
    (fits : Fits run second d) (sound : d.clock.Sound)
    (fires : FiresTo run first d (.returned middle)) : Fits run second middle := by
  obtain ⟨_, _, last, turns, rfl⟩ := fires.spec sound (fits.mono le)
  have fromLast : Fits run second last := fun d' later => fits d' ((turns.mono le).trans later)
  exact fromLast.withIcount first

theorem advanceTarget_ok {c : Clock H} {n : Nat} (inRange : c.icount + n < countLimit) :
    c.advanceTarget n = .ok (c.icount + n) := by
  unfold Clock.advanceTarget Clock.add
  rw [if_pos inRange]

theorem answers_advance_iff {d : Driven H W} {ending : Ending H W} {n : Nat}
    (clean : ending.Clean) (inRange : d.clock.icount + n < countLimit) :
    Answers run (.advance n) d ending ↔ FiresTo run (d.clock.icount + n) d ending := by
  unfold Answers Driven.call Driven.advance
  dsimp only
  rw [advanceTarget_ok inRange]
  exact fireDue_iff clean

theorem tick_eq {d : Driven H W} (inRange : d.clock.icount + 1 < countLimit) (fuel : Nat) :
    tick run fuel d =
      if d.clock.icount + 1 = d.clock.nextDue then
        fireDue run (d.clock.icount + 1) fuel (d.withIcount (d.clock.icount + 1))
      else some (.returned (d.withIcount (d.clock.icount + 1))) := by
  have notLast : d.clock.icount ≠ noneDue := by
    unfold noneDue
    omega
  unfold Driven.tick Clock.countTick
  rw [if_neg notLast]
  by_cases isDue : d.clock.icount + 1 = d.clock.nextDue
  · rw [if_pos isDue, if_neg (by simpa using isDue)]
    rfl
  · rw [if_neg isDue, if_pos (by simpa using isDue)]
    rfl

/-- Between calls an event can only be due at the next instruction. -/
theorem answers_tick_iff {d : Driven H W} {ending : Ending H W} (clean : ending.Clean)
    (steady : d.clock.Steady) (inRange : d.clock.icount + 1 < countLimit) :
    Answers run .tick d ending ↔ FiresTo run (d.clock.icount + 1) d ending := by
  unfold Answers Driven.call
  dsimp only
  simp only [tick_eq inRange]
  split
  · exact (fireDue_iff clean).trans (firesTo_withIcount (d.clock.icount + 1))
  next notDue =>
    have done : d.clock.fireReady (d.clock.icount + 1) = false := by
      apply Clock.not_ready
      intro nonempty
      have later := steady.lt_nextDue nonempty
      omega
    have fires : FiresTo run (d.clock.icount + 1) d
        (.returned (d.withIcount (d.clock.icount + 1))) := .finish done
    constructor
    · rintro ⟨fuel, returned⟩
      cases returned
      exact fires
    · intro other
      rw [other.unique fires]
      exact ⟨0, rfl⟩

theorem answers_clean {d : Driven H W} {ending : Ending H W} (clean : ending.Clean)
    (steady : d.clock.Steady) {c : Call} (inRange : d.clock.icount + c.length < countLimit) :
    Answers run c d ending ↔ FiresTo run (d.clock.icount + c.length) d ending := by
  cases c with
  | tick => exact answers_tick_iff clean steady inRange
  | advance n => exact answers_advance_iff clean inRange

theorem total_cons (c : Call) (calls : List Call) : total (c :: calls) = c.length + total calls := by
  simp [total]

theorem total_replicate (n : Nat) : total (List.replicate n .tick) = n := by
  simp [total, Call.length]

/-- Nothing is left to fire at the count itself. -/
theorem firesTo_icount_iff {d : Driven H W} {ending : Ending H W} (steady : d.clock.Steady) :
    FiresTo run d.clock.icount d ending ↔ ending = .returned d := by
  have done : d.clock.fireReady d.clock.icount = false := Clock.not_ready steady.lt_nextDue
  have stays : FiresTo run d.clock.icount d (.returned d) := .finish done
  exact ⟨fun fires => fires.unique stays, fun same => same ▸ stays⟩

/-- What is fired to a target behind a call that returns. -/
structure Continues (run : H → Nat → W → Script H W) (c : Call) (rest : Nat)
    (d middle : Driven H W) : Prop where
  steady : middle.clock.Steady
  icount : middle.clock.icount = d.clock.icount + c.length
  fits : Fits run (middle.clock.icount + rest) middle
  fires : ∀ ending, FiresTo run (d.clock.icount + c.length + rest) d ending ↔
    FiresTo run (middle.clock.icount + rest) middle ending

/-- A call returns, or it panics and so does whatever goes on to a later target. -/
theorem answers_cases {d : Driven H W} (steady : d.clock.Steady) {c : Call} {rest : Nat}
    (inRange : d.clock.icount + c.length + rest < countLimit)
    (fits : Fits run (d.clock.icount + c.length + rest) d) :
    (∃ middle, (∀ ending : Ending H W, ending.Clean →
        (Answers run c d ending ↔ ending = .returned middle)) ∧ Continues run c rest d middle) ∨
      ∃ after firings, (∀ ending : Ending H W, ending.Clean →
        (Answers run c d ending ↔ ending = .panicked after firings)) ∧
        ∀ ending, FiresTo run (d.clock.icount + c.length + rest) d ending ↔
          ending = .panicked after firings := by
  have le : d.clock.icount + c.length ≤ d.clock.icount + c.length + rest := Nat.le_add_right _ _
  obtain ⟨ended, first⟩ := exists_firesTo steady.toSound (fits.mono le)
  have only (ending : Ending H W) (clean : ending.Clean) :
      Answers run c d ending ↔ ending = ended := by
    rw [answers_clean clean steady (by omega)]
    exact ⟨fun fires => fires.unique first, fun same => same ▸ first⟩
  cases ended with
  | returned middle =>
      obtain ⟨steady', icount, _⟩ := first.spec steady.toSound (fits.mono le)
      refine .inl ⟨middle, only, steady', icount, ?_, fun ending => ?_⟩
      · rw [icount]
        exact fits.after le steady.toSound first
      · rw [icount]
        exact first.split le ending
  | failed => exact first.clean.elim
  | panicked after firings =>
      have whole := first.panicked le
      exact .inr ⟨after, firings, only, fun ending =>
        ⟨fun fires => fires.unique whole, fun same => same ▸ whole⟩⟩

/-- Calls one after the other fire what a single `fireDue` to their end fires. -/
theorem performs_iff {calls : List Call} {d : Driven H W} {ending : Ending H W}
    (steady : d.clock.Steady) (inRange : d.clock.icount + total calls < countLimit)
    (fits : Fits run (d.clock.icount + total calls) d) :
    Performs run calls d ending ↔ FiresTo run (d.clock.icount + total calls) d ending := by
  induction calls generalizing d with
  | nil =>
      change Performs run [] d ending ↔ FiresTo run d.clock.icount d ending
      rw [firesTo_icount_iff steady]
      constructor
      · intro performed
        cases performed
        rfl
      · rintro rfl
        exact .nil
  | cons c calls ih =>
      rw [total_cons, ← Nat.add_assoc] at inRange fits ⊢
      rcases answers_cases steady inRange fits with
        ⟨middle, only, continues⟩ | ⟨after, firings, only, fires⟩
      · have returned : Returns run c d middle := (only (.returned middle) trivial).mpr rfl
        have inRange' : middle.clock.icount + total calls < countLimit := by
          rw [continues.icount]
          exact inRange
        rw [continues.fires, ← ih continues.steady inRange' continues.fits]
        constructor
        · intro performed
          cases performed with
          | cons first rest =>
              cases (only (.returned _) trivial).mp first
              exact rest
          | panic panicked => cases (only (.panicked _ _) trivial).mp panicked
        · exact fun rest => .cons returned rest
      · have panicked : Answers run c d (.panicked after firings) :=
          (only (.panicked after firings) trivial).mpr rfl
        rw [fires]
        constructor
        · intro performed
          cases performed with
          | cons first _ => cases (only (.returned _) trivial).mp first
          | panic other => exact (only (.panicked _ _) trivial).mp other
        · rintro rfl
          exact .panic panicked

theorem budget_pos {c : Clock H} (steady : c.Steady) {max : Nat} (positive : 0 < max) :
    0 < c.budget max := by
  unfold Clock.budget Clock.nextDue?
  rw [if_neg (by omega)]
  by_cases empty : c.queue.length = 0
  · rw [if_pos empty]
    exact positive
  · rw [if_neg empty]
    have later := steady.lt_nextDue (by omega)
    have fits := steady.nextDue_lt (by omega)
    have gap : (c.nextDue + countLimit - c.icount) % countLimit = c.nextDue - c.icount := by
      rw [show c.nextDue + countLimit - c.icount = c.nextDue - c.icount + countLimit by omega,
        Nat.add_mod_right, Nat.mod_eq_of_lt (by omega)]
    dsimp only
    rw [gap]
    split <;> omega

/-- Whatever parts of the budget the loop takes, it fires what a single `fireDue`
to its end fires. -/
theorem Budgeted.firesTo {max n : Nat} {d : Driven H W} {ending : Ending H W}
    (budgeted : Budgeted run max n d ending) (steady : d.clock.Steady)
    (inRange : d.clock.icount + n < countLimit) (fits : Fits run (d.clock.icount + n) d) :
    FiresTo run (d.clock.icount + n) d ending := by
  induction budgeted with
  | done => exact (firesTo_icount_iff steady).mpr rfl
  | @batch n rest d d' ending within returned more ih =>
      rw [← Nat.add_assoc] at inRange fits ⊢
      rcases answers_cases (c := .advance n) steady inRange fits with
        ⟨middle, only, continues⟩ | ⟨after, firings, only, _⟩
      · cases (only (.returned _) trivial).mp returned
        change FiresTo run (d.clock.icount + (Call.advance n).length + rest) d ending
        rw [continues.fires]
        exact ih continues.steady (by rw [continues.icount]; exact inRange) continues.fits
      · cases (only (.returned _) trivial).mp returned
  | @panic n rest d after firings within panicked =>
      rw [← Nat.add_assoc] at inRange ⊢
      have clean : (Ending.panicked after firings : Ending H W).Clean := trivial
      have first := (answers_advance_iff (n := n) clean (by omega)).mp panicked
      exact first.panicked (Nat.le_add_right _ _)

/-- The loop comes to its end or to a panic: a budget is never zero. -/
theorem exists_budgeted {max : Nat} (positive : 0 < max) (n : Nat) {d : Driven H W}
    (steady : d.clock.Steady) (inRange : d.clock.icount + n < countLimit)
    (fits : Fits run (d.clock.icount + n) d) : ∃ ending, Budgeted run max n d ending := by
  induction n using Nat.strongRecOn generalizing d with
  | ind n ih =>
      rcases Nat.eq_zero_or_pos n with rfl | more
      · exact ⟨_, .done⟩
      · have budget := budget_pos steady positive
        obtain ⟨batch, rest, within, advances, rfl⟩ :
            ∃ batch rest, batch ≤ d.clock.budget max ∧ 0 < batch ∧ n = batch + rest :=
          ⟨min n (d.clock.budget max), n - min n (d.clock.budget max), by omega, by omega,
            by omega⟩
        rw [← Nat.add_assoc] at inRange fits
        rcases answers_cases (c := .advance batch) steady inRange fits with
          ⟨middle, only, continues⟩ | ⟨after, firings, only, _⟩
        · obtain ⟨ending, loop⟩ := ih rest (by omega) continues.steady
            (by rw [continues.icount]; exact inRange) continues.fits
          exact ⟨ending, .batch within ((only (.returned middle) trivial).mpr rfl) loop⟩
        · exact ⟨_, .panic within ((only (.panicked after firings) trivial).mpr rfl)⟩

end Driven

end GoRetroTv
