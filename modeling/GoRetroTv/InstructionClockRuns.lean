import GoRetroTv.InstructionClockSnapshot

/-!
# Runs of the clock

A run interleaves the clock's operations with the turns of the `fireDue` calls
in progress.  While a handler runs it may call any operation, `Tick` and
`Advance` included, so the calls in progress form a stack; nothing is assumed
about what a handler does or returns.
-/

namespace GoRetroTv

/-- A `fireDue` in progress, and whether its handler is running. -/
structure FireCall where
  target : Nat
  handling : Bool
  deriving DecidableEq

/-- A clock with the `fireDue` calls in progress, innermost first. -/
structure RunningClock (H : Type) where
  clock : Clock H
  calls : List FireCall := []

/-- One action of the caller, of a running handler or of `fireDue` itself. -/
inductive ClockAction (H : Type) where
  | at_ (due : DoubleWord) (name : List Byte) (fn : Option H)
  | after (delta : DoubleWord) (name : List Byte) (fn : Option H)
  | every (period : DoubleWord) (name : List Byte) (fn : Option H)
  | cancel (id : Nat)
  | tick
  | advance (n : DoubleWord)
  | fire
  | handlerReturns (error : Option String)
  | finish

/-- What an observer of a run records. -/
inductive ClockEntry (H : Type) where
  | fired (id now : Nat)
  | cancelled (id : Nat)
  | failed
  | restored (snapshot : Clock H)

namespace RunningClock

variable {H : Type}

/-- Neither idle callers nor running handlers are kept from calling. -/
def inControl (r : RunningClock H) : Bool :=
  match r.calls with
  | [] => true
  | call :: _ => call.handling

def withClock (r : RunningClock H) (clock : Clock H) : RunningClock H :=
  { r with clock }

/-- One action, where it is possible.  None comes behind a panic. -/
def step (r : RunningClock H) : ClockAction H → Option (RunningClock H)
  | .at_ due name fn =>
      if r.inControl then some (r.withClock (r.clock.at_ due.toNat name fn).2) else none
  | .after delta name fn =>
      if r.inControl then some (r.withClock (r.clock.after delta.toNat name fn).2) else none
  | .every period name fn =>
      if r.inControl then some (r.withClock (r.clock.every period.toNat name fn).2) else none
  | .cancel id =>
      if r.inControl then
        match r.clock.cancel id with
        | .ok (_, clock) => some (r.withClock clock)
        | .error _ => none
      else none
  | .tick =>
      if r.inControl then
        match r.clock.countTick with
        | (.ok (some target), clock) => some ⟨clock, ⟨target, false⟩ :: r.calls⟩
        | (_, clock) => some (r.withClock clock)
      else none
  | .advance n =>
      if r.inControl then
        match r.clock.advanceTarget n.toNat with
        | .ok target => some ⟨r.clock, ⟨target, false⟩ :: r.calls⟩
        | .error _ => some r
      else none
  | .fire =>
      match r.calls with
      | ⟨target, false⟩ :: outer =>
          if r.clock.fireReady target then
            match r.clock.fireNext with
            | some (_, .ok (), clock) => some ⟨clock, ⟨target, true⟩ :: outer⟩
            | some (_, .error _, clock) => some ⟨clock, outer⟩
            | none => none
          else none
      | _ => none
  | .handlerReturns error =>
      match r.calls with
      | ⟨target, true⟩ :: outer =>
          match error with
          | none => some ⟨r.clock, ⟨target, false⟩ :: outer⟩
          | some _ => some ⟨r.clock, outer⟩
      | _ => none
  | .finish =>
      match r.calls with
      | ⟨target, false⟩ :: outer =>
          if r.clock.fireReady target then none
          else some ⟨{ r.clock with icount := target }, outer⟩
      | _ => none

/-- What an action records. -/
def entries (r : RunningClock H) : ClockAction H → List (ClockEntry H)
  | .cancel id => [.cancelled id]
  | .fire =>
      match r.clock.fireNext with
      | some (ev, .ok (), clock) => [.fired ev.id clock.icount]
      | _ => [.failed]
  | .handlerReturns (some _) => [.failed]
  | _ => []

/-- The counts an action is about to use do not wrap: fewer than `2 ^ 64`
events have been scheduled, and a periodic event at the head has a next due
instruction. -/
def Allowed (r : RunningClock H) : ClockAction H → Prop
  | .at_ _ _ _ | .after _ _ _ | .every _ _ _ => r.clock.nextID + 1 < countLimit
  | .fire => r.clock.HeadFits
  | _ => True

end RunningClock

namespace Clock

variable {H : Type}

/-- The due instructions in registration order are such that `heap.Init` moves
every position but the root. -/
def InitExchangesAll (c : Clock H) : Prop :=
  MarkedKeys.AllExchanged (c.liveEvents.map fun ev => (ev.due, ev.seq))

end Clock

namespace RunningClock

variable {H : Type}

/-- The states of every clock of every run whose steps all meet the condition.
A restore may take the snapshot of any of them. -/
inductive Reachable : RunningClock H → Prop where
  | new : Reachable { clock := Clock.new }
  | step {r r' : RunningClock H} (before : Reachable r) (action : ClockAction H)
      (allowed : r.Allowed action) (stepped : r.step action = some r') : Reachable r'
  | restore {r source : RunningClock H} (before : Reachable r) (taken : Reachable source)
      {blob : List Byte} {handlers : List Byte → Option H} {clock : Clock H}
      (control : r.inControl = true) (snapshot : source.clock.snapshot = .ok blob)
      (exchanged : source.clock.InitExchangesAll)
      (restored : r.clock.restore blob handlers = .ok clock) :
      Reachable (r.withClock clock)

/-- A run onwards from a state, with what it records. -/
inductive Execution (r : RunningClock H) : List (ClockEntry H) → RunningClock H → Prop where
  | start : Execution r [] r
  | step {trace : List (ClockEntry H)} {r' r'' : RunningClock H} (before : Execution r trace r')
      (action : ClockAction H) (allowed : r'.Allowed action)
      (stepped : r'.step action = some r'') : Execution r (trace ++ r'.entries action) r''
  | restore {trace : List (ClockEntry H)} {r' source : RunningClock H}
      (before : Execution r trace r') (taken : Reachable source)
      {blob : List Byte} {handlers : List Byte → Option H} {clock : Clock H}
      (control : r'.inControl = true) (snapshot : source.clock.snapshot = .ok blob)
      (exchanged : source.clock.InitExchangesAll)
      (restored : r'.clock.restore blob handlers = .ok clock) :
      Execution r (trace ++ [.restored source.clock]) (r'.withClock clock)

/-- Outside `fireDue`, everything pending is due later. -/
def OnTime (r : RunningClock H) : Prop :=
  r.calls = [] → ∀ ev, r.clock.Pending ev → r.clock.icount < ev.due

structure Valid (r : RunningClock H) : Prop where
  clock : r.clock.Valid
  targets : ∀ call ∈ r.calls, call.target < countLimit

/-- What one action does to the pending events, with what it records. -/
inductive Effect (c c' : Clock H) : List (ClockEntry H) → Prop where
  | kept (pending : ∀ ev, c'.Pending ev ↔ c.Pending ev) (nextID : c'.nextID = c.nextID) :
      Effect c c' []
  | failed (pending : ∀ ev, c'.Pending ev ↔ c.Pending ev) (nextID : c'.nextID = c.nextID) :
      Effect c c' [.failed]
  | added (new : Event H) (newId : new.id = c.nextID + 1)
      (pending : ∀ ev, c'.Pending ev ↔ c.Pending ev ∨ ev = new)
      (nextID : c'.nextID = c.nextID + 1) : Effect c c' []
  | cancelled (id : Nat) (pending : ∀ ev, c'.Pending ev ↔ c.Pending ev ∧ ev.id ≠ id)
      (nextID : c'.nextID = c.nextID) : Effect c c' [.cancelled id]
  | fired (head : Event H) (wasPending : c.Pending head)
      (pending : ∀ ev, c'.Pending ev ↔ (c.Pending ev ∧ ev.id ≠ head.id) ∨
        (0 < head.period ∧ ev = { head with due := head.due + head.period }))
      (nextID : c'.nextID = c.nextID) : Effect c c' [.fired head.id head.due]

end RunningClock

namespace Clock

variable {H : Type}

theorem Valid.withIcount {c : Clock H} (valid : c.Valid) {icount : Nat}
    (fits : icount < countLimit) :
    Valid { c with icount } where
  consistent := by
    obtain ⟨indexed, ordered, live, liveIds, nextDue⟩ := valid.consistent
    have off : OffQueue c { c with icount } := ⟨rfl, fun _ _ => rfl⟩
    exact ⟨indexed.offQueue off, ordered.offQueue off, live, liveIds, nextDue⟩
  numbered := {
    icount_lt := fits
    nextSeq_eq := valid.numbered.nextSeq_eq
    nextID_lt := valid.numbered.nextID_lt
    events := valid.numbered.events }

/-- What `At`, `After` and `Every` come to: nothing, or one more event that is
due later. -/
def SchedulesAtMostOne (c c' : Clock H) : Prop :=
  c' = c ∨ ∃ new : Event H, new.id = c.nextID + 1 ∧ c.icount < new.due ∧
    (∀ ev, c'.Pending ev ↔ c.Pending ev ∨ ev = new) ∧ c'.icount = c.icount ∧
    c'.nextID = c.nextID + 1

theorem Valid.schedule_one {c : Clock H} (valid : c.Valid) (fits : c.nextID + 1 < countLimit)
    (name : List Byte) {due period : Nat} (dueFits : due < countLimit)
    (periodFits : period < countLimit) (later : c.icount < due) (fn : H) :
    (c.schedule name due period fn).2.Valid ∧
      SchedulesAtMostOne c (c.schedule name due period fn).2 := by
  obtain ⟨valid', _, pending, icount, nextID⟩ :=
    valid.schedule fits name dueFits periodFits fn
  exact ⟨valid', .inr ⟨_, rfl, later, pending, icount, nextID⟩⟩

theorem add_ok {first second sum : Nat} (succeeded : add first second = .ok sum) :
    sum = first + second ∧ first + second < countLimit := by
  unfold add at succeeded
  split at succeeded
  next fits => exact ⟨(Except.ok.inj succeeded).symm, fits⟩
  next => cases succeeded

theorem Valid.at_ {c : Clock H} (valid : c.Valid) (fits : c.nextID + 1 < countLimit) {due : Nat}
    (dueFits : due < countLimit) (name : List Byte) (fn : Option H) :
    (c.at_ due name fn).2.Valid ∧ SchedulesAtMostOne c (c.at_ due name fn).2 := by
  cases fn with
  | none => exact ⟨valid, .inl rfl⟩
  | some fn =>
      simp only [Clock.at_]
      split
      · exact ⟨valid, .inl rfl⟩
      next later =>
        exact valid.schedule_one fits name dueFits (by decide) (Nat.not_le.mp later) fn

theorem Valid.after {c : Clock H} (valid : c.Valid) (fits : c.nextID + 1 < countLimit)
    (delta : Nat) (name : List Byte) (fn : Option H) :
    (c.after delta name fn).2.Valid ∧ SchedulesAtMostOne c (c.after delta name fn).2 := by
  simp only [Clock.after]
  split
  · exact ⟨valid, .inl rfl⟩
  · cases sum : add c.icount delta with
    | error error => exact ⟨valid, .inl rfl⟩
    | ok due =>
        obtain ⟨isSum, sumFits⟩ := add_ok sum
        exact valid.at_ fits (isSum ▸ sumFits) name fn

theorem Valid.every {c : Clock H} (valid : c.Valid) (fits : c.nextID + 1 < countLimit)
    {period : Nat} (periodFits : period < countLimit) (name : List Byte) (fn : Option H) :
    (c.every period name fn).2.Valid ∧ SchedulesAtMostOne c (c.every period name fn).2 := by
  simp only [Clock.every]
  split
  · exact ⟨valid, .inl rfl⟩
  next positive =>
    cases fn with
    | none => exact ⟨valid, .inl rfl⟩
    | some fn =>
        cases sum : add c.icount period with
        | error error => exact ⟨valid, .inl rfl⟩
        | ok due =>
            obtain ⟨isSum, sumFits⟩ := add_ok sum
            exact valid.schedule_one fits name (isSum ▸ sumFits) periodFits (by omega) fn

/-- Some pending event is due at the cached instruction, if any is pending. -/
theorem Consistent.exists_at_nextDue {c : Clock H} (consistent : c.Consistent) {ev : Event H}
    (pending : c.Pending ev) :
    ∃ head, c.Pending head ∧ head.due = c.nextDue := by
  obtain ⟨ref, member, _⟩ := pending
  have nonempty := List.length_pos_of_mem member
  have atHead := List.getElem?_eq_getElem nonempty
  obtain ⟨head, isHead⟩ := consistent.indexed.isEvent (List.mem_of_getElem? atHead)
  refine ⟨head.core, ⟨_, List.mem_of_getElem? atHead, coreAt_eq_some isHead⟩, ?_⟩
  rw [consistent.nextDue, headDue, List.head?_eq_getElem?, atHead]
  simp [isHead, Event.core]

/-- The three ways `Tick` counts. -/
theorem countTick_cases (c : Clock H) :
    (∃ error, c.countTick = (.error error, c)) ∨
      (c.icount ≠ noneDue ∧ c.icount + 1 ≠ c.nextDue ∧
        c.countTick = (.ok none, { c with icount := c.icount + 1 })) ∨
      (c.icount ≠ noneDue ∧
        c.countTick = (.ok (some (c.icount + 1)), { c with icount := c.icount + 1 })) := by
  by_cases full : c.icount = noneDue
  · exact .inl ⟨_, if_pos full⟩
  · by_cases notDue : c.icount + 1 = c.nextDue
    · refine .inr (.inr ⟨full, ?_⟩)
      simp [countTick, full, notDue]
    · refine .inr (.inl ⟨full, notDue, ?_⟩)
      simp [countTick, full, notDue]

theorem advanceTarget_lt {c : Clock H} {n target : Nat}
    (succeeded : c.advanceTarget n = .ok target) :
    target < countLimit := by
  unfold advanceTarget at succeeded
  cases sum : add c.icount n with
  | error error => simp [sum] at succeeded
  | ok total =>
      obtain ⟨isSum, fits⟩ := add_ok sum
      simp only [sum, Except.ok.injEq] at succeeded
      omega

end Clock

namespace RunningClock

variable {H : Type}

theorem Effect.of_schedulesAtMostOne {c c' : Clock H} (one : c.SchedulesAtMostOne c') :
    Effect c c' [] := by
  rcases one with rfl | ⟨new, newId, _, pending, _, nextID⟩
  · exact .kept (fun _ => Iff.rfl) rfl
  · exact .added new newId pending nextID

theorem OnTime.of_schedulesAtMostOne {r : RunningClock H} {clock : Clock H} (onTime : r.OnTime)
    (one : r.clock.SchedulesAtMostOne clock) :
    (r.withClock clock).OnTime := by
  intro idle ev pending
  rcases one with rfl | ⟨new, _, later, isPending, icount, _⟩
  · exact onTime idle ev pending
  · change clock.icount < ev.due
    rw [icount]
    rcases (isPending ev).mp pending with before | rfl
    · exact onTime idle ev before
    · exact later

/-- What one action does: it keeps the clock valid, has one of the effects, and
stays on time unless it records a failure. -/
structure StepSpec (r r' : RunningClock H) (entries : List (ClockEntry H)) : Prop where
  valid : r'.Valid
  effect : Effect r.clock r'.clock entries
  onTime : .failed ∉ entries → r.OnTime → r'.OnTime

theorem StepSpec.of_schedulesAtMostOne {r : RunningClock H} {clock : Clock H} (valid : r.Valid)
    (spec : clock.Valid ∧ r.clock.SchedulesAtMostOne clock) :
    StepSpec r (r.withClock clock) [] where
  valid := ⟨spec.1, valid.targets⟩
  effect := .of_schedulesAtMostOne spec.2
  onTime _ onTime := onTime.of_schedulesAtMostOne spec.2

/-- A `fireDue` that begins. -/
theorem StepSpec.of_call {r : RunningClock H} (valid : r.Valid) {clock : Clock H} {target : Nat}
    (clockValid : clock.Valid) (fits : target < countLimit)
    (pending : ∀ ev, clock.Pending ev ↔ r.clock.Pending ev)
    (nextID : clock.nextID = r.clock.nextID) :
    StepSpec r ⟨clock, ⟨target, false⟩ :: r.calls⟩ [] where
  valid := by
    refine ⟨clockValid, fun call member => ?_⟩
    rcases List.mem_cons.mp member with rfl | outer
    · exact fits
    · exact valid.targets call outer
  effect := .kept pending nextID
  onTime := by
    intro _ _ idle
    cases idle

theorem Valid.tick {r r' : RunningClock H} (valid : r.Valid)
    (stepped : r.step .tick = some r') :
    StepSpec r r' [] := by
  have icountFits := valid.clock.numbered.icount_lt
  have fits : r.clock.icount ≠ noneDue → r.clock.icount + 1 < countLimit := by
    intro notFull
    simp only [noneDue] at notFull
    omega
  simp only [RunningClock.step] at stepped
  split at stepped
  · rcases r.clock.countTick_cases with ⟨error, counted⟩ | ⟨notFull, notDue, counted⟩ |
      ⟨notFull, counted⟩
    · rw [counted] at stepped
      cases stepped
      exact ⟨valid, .kept (fun _ => Iff.rfl) rfl, fun _ onTime => onTime⟩
    · rw [counted] at stepped
      cases stepped
      refine ⟨⟨valid.clock.withIcount (fits notFull), valid.targets⟩,
        .kept (fun _ => Iff.rfl) rfl, ?_⟩
      intro _ onTime idle ev pending
      change r.clock.icount + 1 < ev.due
      have pendingBefore : r.clock.Pending ev := pending
      have later := onTime idle ev pendingBefore
      obtain ⟨head, headPending, headDue⟩ :=
        valid.clock.consistent.exists_at_nextDue pendingBefore
      have headLater := onTime idle head headPending
      have least := valid.clock.consistent.headDue_le pendingBefore
      omega
    · rw [counted] at stepped
      cases stepped
      exact .of_call valid (valid.clock.withIcount (fits notFull)) (fits notFull)
        (fun _ => Iff.rfl) rfl
  · cases stepped

theorem Valid.fire {r r' : RunningClock H} (valid : r.Valid) (fits : r.clock.HeadFits)
    (stepped : r.step .fire = some r') :
    StepSpec r r' (r.entries .fire) := by
  simp only [RunningClock.step] at stepped
  split at stepped
  next target outer inCall =>
    split at stepped
    next ready =>
      simp only [Clock.fireReady, Bool.and_eq_true, decide_eq_true_eq] at ready
      obtain ⟨ev, clock, fired, clockValid, pending, _, icount, nextID, after⟩ :=
        valid.clock.fireNext ready.1 fits
      rw [fired] at stepped
      cases stepped
      have recorded : r.entries .fire = [.fired ev.core.id ev.core.due] := by
        simp [entries, fired, icount, Event.core]
      rw [recorded]
      refine ⟨⟨clockValid, ?_⟩, .fired ev.core pending after nextID, ?_⟩
      · intro call member
        rcases List.mem_cons.mp member with rfl | isOuter
        · exact valid.targets ⟨target, false⟩ (by rw [inCall]; exact List.mem_cons_self)
        · exact valid.targets call (by rw [inCall]; exact List.mem_cons_of_mem _ isOuter)
      · intro _ _ idle
        cases idle
    · cases stepped
  · cases stepped

theorem Valid.handlerReturns {r r' : RunningClock H} (valid : r.Valid) {error : Option String}
    (stepped : r.step (.handlerReturns error) = some r') :
    StepSpec r r' (r.entries (.handlerReturns error)) := by
  simp only [RunningClock.step] at stepped
  split at stepped
  next target outer inCall =>
    have outerTargets : ∀ call ∈ outer, call.target < countLimit := fun call member =>
      valid.targets call (by rw [inCall]; exact List.mem_cons_of_mem _ member)
    cases error with
    | none =>
        cases stepped
        refine ⟨⟨valid.clock, ?_⟩, .kept (fun _ => Iff.rfl) rfl, ?_⟩
        · intro call member
          rcases List.mem_cons.mp member with rfl | isOuter
          · exact valid.targets ⟨target, true⟩ (by rw [inCall]; exact List.mem_cons_self)
          · exact outerTargets call isOuter
        · intro _ _ idle
          cases idle
    | some error =>
        cases stepped
        exact ⟨⟨valid.clock, outerTargets⟩, .failed (fun _ => Iff.rfl) rfl,
          fun notFailed => absurd List.mem_cons_self notFailed⟩
  · cases stepped

theorem Valid.finish {r r' : RunningClock H} (valid : r.Valid)
    (stepped : r.step .finish = some r') :
    StepSpec r r' [] := by
  simp only [RunningClock.step] at stepped
  split at stepped
  next target outer inCall =>
    split at stepped
    · cases stepped
    next notReady =>
      cases stepped
      have targetFits : target < countLimit :=
        valid.targets _ (by rw [inCall]; exact List.mem_cons_self)
      refine ⟨⟨valid.clock.withIcount targetFits, fun call member => ?_⟩,
        .kept (fun _ => Iff.rfl) rfl, ?_⟩
      · exact valid.targets call (by rw [inCall]; exact List.mem_cons_of_mem _ member)
      · intro _ _ _ ev pending
        change target < ev.due
        have pendingBefore : r.clock.Pending ev := pending
        have least := valid.clock.consistent.headDue_le pendingBefore
        obtain ⟨ref, member, _⟩ := pendingBefore
        have nonempty := List.length_pos_of_mem member
        simp only [Clock.fireReady, Bool.and_eq_true, decide_eq_true_eq, not_and, not_le] at notReady
        exact (notReady nonempty).trans_le least
  · cases stepped

theorem Valid.step {r r' : RunningClock H} (valid : r.Valid) {action : ClockAction H}
    (allowed : r.Allowed action) (stepped : r.step action = some r') :
    StepSpec r r' (r.entries action) := by
  cases action with
  | at_ due name fn =>
      simp only [RunningClock.step] at stepped
      split at stepped
      · cases stepped
        exact .of_schedulesAtMostOne valid (valid.clock.at_ allowed due.isLt name fn)
      · cases stepped
  | after delta name fn =>
      simp only [RunningClock.step] at stepped
      split at stepped
      · cases stepped
        exact .of_schedulesAtMostOne valid (valid.clock.after allowed delta.toNat name fn)
      · cases stepped
  | every period name fn =>
      simp only [RunningClock.step] at stepped
      split at stepped
      · cases stepped
        exact .of_schedulesAtMostOne valid (valid.clock.every allowed period.isLt name fn)
      · cases stepped
  | cancel id =>
      simp only [RunningClock.step] at stepped
      split at stepped
      · obtain ⟨found, clock, cancelled, clockValid, _, pending, icount, nextID⟩ :=
          valid.clock.cancel id
        rw [cancelled] at stepped
        cases stepped
        refine ⟨⟨clockValid, valid.targets⟩, .cancelled id pending nextID, ?_⟩
        intro _ onTime idle ev isPending
        change clock.icount < ev.due
        rw [icount]
        exact onTime idle ev ((pending ev).mp isPending).1
      · cases stepped
  | tick => exact valid.tick stepped
  | advance n =>
      simp only [RunningClock.step] at stepped
      split at stepped
      · cases goal : r.clock.advanceTarget n.toNat with
        | error error =>
            rw [goal] at stepped
            cases stepped
            exact ⟨valid, .kept (fun _ => Iff.rfl) rfl, fun _ onTime => onTime⟩
        | ok target =>
            rw [goal] at stepped
            cases stepped
            exact .of_call valid valid.clock (Clock.advanceTarget_lt goal) (fun _ => Iff.rfl) rfl
      · cases stepped
  | fire => exact valid.fire allowed stepped
  | handlerReturns error => exact valid.handlerReturns stepped
  | finish => exact valid.finish stepped

end RunningClock

end GoRetroTv
