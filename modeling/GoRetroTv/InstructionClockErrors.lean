import GoRetroTv.InstructionClockBatching
import GoRetroTv.InstructionClockCancellation

/-!
# The clock after an error

A handler's error stops `fireDue` with the counter at the handler's own
instruction.  When nothing else is due there, the clock goes on as if nothing
had happened: the counter never goes back, a tick is an advance by one, every
pending event fires when its instruction is reached, and the budget stops short
of the next.  When something else is due there, the next tick passes it over.
-/

namespace GoRetroTv

namespace RunningClock

variable {H : Type}

/-- Only an idle caller counts instructions, and a handler that fails leaves
nothing else due at its instruction. -/
def Orderly (r : RunningClock H) : ClockAction H → Prop
  | .tick | .advance _ => r.calls = []
  | .handlerReturns (some _) => r.clock.fireReady r.clock.icount = false
  | _ => True

/-- The states of the runs whose steps all meet the conditions. -/
inductive Reached : RunningClock H → Prop where
  | new : Reached { clock := Clock.new }
  | step {r r' : RunningClock H} (before : Reached r) (action : ClockAction H)
      (allowed : r.Allowed action) (orderly : r.Orderly action)
      (stepped : r.step action = some r') : Reached r'
  | restore {r source : RunningClock H} (before : Reached r) (taken : Reached source)
      {blob : List Byte} {handlers : List Byte → Option H} {clock : Clock H}
      (idle : r.calls = []) (snapshot : source.clock.snapshot = .ok blob)
      (exchanged : source.clock.InitExchangesAll)
      (restored : r.clock.restore blob handlers = .ok clock) :
      Reached (r.withClock clock)
  | restoreTo {r : RunningClock H} (before : Reached r) (idle : r.calls = [])
      (icount : DoubleWord) : Reached (r.withClock (r.clock.restoreTo icount.toNat))

/-- The actions of a call until it returns, with what they record. -/
inductive Ends : RunningClock H → List (ClockEntry H) → RunningClock H → Prop where
  | idle {r : RunningClock H} (idle : r.calls = []) : Ends r [] r
  | step {r r' r'' : RunningClock H} {trace : List (ClockEntry H)} (busy : r.calls ≠ [])
      (action : ClockAction H) (allowed : r.Allowed action) (orderly : r.Orderly action)
      (stepped : r.step action = some r') (rest : Ends r' trace r'') :
      Ends r (r.entries action ++ trace) r''

/-- A call of an idle caller, from its beginning to its return. -/
def Completes (call : ClockAction H) (r : RunningClock H) (trace : List (ClockEntry H))
    (r' : RunningClock H) : Prop :=
  ∃ begun, r.step call = some begun ∧ Ends begun trace r'

/-- What a user of the clock relies on. -/
structure Dependable (r : RunningClock H) : Prop where
  forward : ∀ action r', r.Allowed action → r.Orderly action → r.step action = some r' →
    r.clock.icount ≤ r'.clock.icount
  live : ∀ id, (∃ ref, (id, ref) ∈ r.clock.live) ↔ ∃ ev, r.clock.Pending ev ∧ ev.id = id
  budget : r.calls = [] → ∀ max ev, r.clock.Pending ev →
    r.clock.icount < ev.due ∧ r.clock.budget max ≤ ev.due - r.clock.icount
  tick : r.calls = [] →
    (∀ trace r', Completes .tick r trace r' ↔ Completes (.advance 1) r trace r') ∧
      ((∃ error, r.clock.countTick.1 = .error error) ↔
        ∃ error, r.clock.advanceTarget 1 = .error error)
  fires : r.calls = [] → ∀ n trace r', Completes (.advance n) r trace r' →
    r.clock.icount ≤ r'.clock.icount ∧
      (∀ ev, r.clock.Pending ev → .fired ev.id ev.due ∈ trace ∨ .cancelled ev.id ∈ trace ∨
        (r'.clock.Pending ev ∧ r'.clock.icount < ev.due)) ∧
      (∀ ev, r'.clock.Pending ev → r'.clock.icount < ev.due) ∧
      (r.clock.icount + n.toNat < countLimit → .failed ∉ trace →
        r'.clock.icount = r.clock.icount + n.toNat)

end RunningClock

namespace Clock

variable {H : Type}

theorem not_pending_of_empty {c : Clock H} (empty : c.queue = []) (ev : Event H) :
    ¬c.Pending ev := by
  rintro ⟨ref, member, -⟩
  rw [empty] at member
  cases member

/-- What is pending when the loop of `fireDue` stops is due after its target. -/
theorem Consistent.later_of_not_ready {c : Clock H} (consistent : c.Consistent) {target : Nat}
    (notReady : c.fireReady target = false) {ev : Event H} (pending : c.Pending ev) :
    target < ev.due := by
  obtain ⟨ref, member, -⟩ := id pending
  have nonempty : 0 < c.queue.length := List.length_pos_of_mem member
  simp only [Clock.fireReady, nonempty, decide_true, Bool.true_and, decide_eq_false_iff_not,
    not_le] at notReady
  exact notReady.trans_le (consistent.headDue_le pending)

/-- `RestoreTo` leaves nothing to be wrong about. -/
theorem Valid.restoreTo {c : Clock H} (valid : c.Valid) {icount : Nat}
    (fits : icount < countLimit) : (c.restoreTo icount).Valid where
  consistent := {
    indexed := fun i ref found => by simp [Clock.restoreTo] at found
    ordered := fun k _ bound => by simp [Clock.restoreTo] at bound
    live := by simp [Clock.restoreTo]
    liveIds := by simp [Clock.restoreTo]
    nextDue := rfl }
  numbered := {
    icount_lt := fits
    nextSeq_eq := valid.numbered.nextSeq_eq
    nextID_lt := valid.numbered.nextID_lt
    events := fun ev pending => absurd pending (not_pending_of_empty rfl ev) }

/-- The budget stops short of everything pending. -/
theorem Valid.budget_le {c : Clock H} (valid : c.Valid)
    (later : ∀ ev, c.Pending ev → c.icount < ev.due) (max : Nat) {ev : Event H}
    (pending : c.Pending ev) : c.budget max ≤ ev.due - c.icount := by
  obtain ⟨head, headPending, headDue⟩ := valid.consistent.exists_at_nextDue pending
  have headLater := later head headPending
  have headFits := (valid.numbered.events head headPending).due_lt
  have least := valid.consistent.headDue_le pending
  obtain ⟨ref, member, -⟩ := id pending
  have nonempty : c.queue.length ≠ 0 := (List.length_pos_of_mem member).ne'
  have gap : (c.nextDue + countLimit - c.icount) % countLimit = c.nextDue - c.icount := by
    rw [show c.nextDue + countLimit - c.icount = c.nextDue - c.icount + countLimit by omega,
      Nat.add_mod_right, Nat.mod_eq_of_lt (by omega)]
  unfold Clock.budget Clock.nextDue?
  rw [if_neg nonempty]
  dsimp only
  rw [gap]
  split_ifs <;> omega

end Clock

namespace RunningClock

variable {H : Type}

theorem fire_eq_some {r r' : RunningClock H} (valid : r.Valid) (fits : r.clock.HeadFits)
    (stepped : r.step .fire = some r') :
    ∃ target outer ev clock, r.calls = ⟨target, false⟩ :: outer ∧
      r.clock.fireReady target = true ∧ r.clock.fireNext = some (ev, .ok (), clock) ∧
      r' = ⟨clock, ⟨target, true⟩ :: outer⟩ := by
  simp only [RunningClock.step] at stepped
  split at stepped
  · next target outer inCall =>
    split at stepped
    · next ready =>
      have nonempty : 0 < r.clock.queue.length := by
        simp only [Clock.fireReady, Bool.and_eq_true, decide_eq_true_eq] at ready
        exact ready.1
      obtain ⟨ev, clock, fired, -⟩ := valid.clock.fireNext nonempty fits
      rw [fired] at stepped
      cases stepped
      exact ⟨target, outer, ev, clock, inCall, ready, fired, rfl⟩
    · cases stepped
  · cases stepped

theorem handlerReturns_eq_some {r r' : RunningClock H} {error : Option String}
    (stepped : r.step (.handlerReturns error) = some r') :
    ∃ target outer, r.calls = ⟨target, true⟩ :: outer ∧
      ((error = none ∧ r' = ⟨r.clock, ⟨target, false⟩ :: outer⟩) ∨
        (error ≠ none ∧ r' = ⟨r.clock, outer⟩)) := by
  simp only [RunningClock.step] at stepped
  split at stepped
  · next target outer inCall =>
    cases error with
    | none =>
      cases stepped
      exact ⟨target, outer, inCall, .inl ⟨rfl, rfl⟩⟩
    | some error =>
      cases stepped
      exact ⟨target, outer, inCall, .inr ⟨Option.some_ne_none error, rfl⟩⟩
  · cases stepped

theorem finish_eq_some {r r' : RunningClock H} (stepped : r.step .finish = some r') :
    ∃ target outer, r.calls = ⟨target, false⟩ :: outer ∧ r.clock.fireReady target = false ∧
      r' = ⟨{ r.clock with icount := target }, outer⟩ := by
  simp only [RunningClock.step] at stepped
  split at stepped
  · next target outer inCall =>
    split at stepped
    · cases stepped
    · next notReady =>
      cases stepped
      exact ⟨target, outer, inCall, Bool.eq_false_iff.mpr notReady, rfl⟩
  · cases stepped

/-- The counter has not passed anything pending, nor the end of the call in
progress. -/
structure InOrder (r : RunningClock H) : Prop where
  valid : r.Valid
  onTime : r.OnTime
  ahead : ∀ ev, r.clock.Pending ev → r.clock.icount ≤ ev.due
  within : ∀ call ∈ r.calls, r.clock.icount ≤ call.target
  single : r.calls.length ≤ 1

theorem inOrder_new : InOrder ({ clock := Clock.new } : RunningClock H) where
  valid := ⟨.new, nofun⟩
  onTime := by
    rintro - ev ⟨ref, member, -⟩
    cases member
  ahead := by
    rintro ev ⟨ref, member, -⟩
    cases member
  within := nofun
  single := Nat.zero_le 1

/-- A schedule or a cancellation leaves the counter and what is due where they
are. -/
theorem InOrder.withClock {r : RunningClock H} (inOrder : r.InOrder) {clock : Clock H}
    (valid : clock.Valid) (icount : clock.icount = r.clock.icount)
    (pending : ∀ ev, clock.Pending ev → r.clock.Pending ev ∨ r.clock.icount < ev.due) :
    (r.withClock clock).InOrder where
  valid := inOrder.valid.withClock valid
  onTime := by
    intro idle ev isPending
    change clock.icount < ev.due
    rw [icount]
    rcases pending ev isPending with before | later
    · exact inOrder.onTime idle ev before
    · exact later
  ahead := by
    intro ev isPending
    change clock.icount ≤ ev.due
    rw [icount]
    rcases pending ev isPending with before | later
    · exact inOrder.ahead ev before
    · exact later.le
  within := by
    intro call member
    change clock.icount ≤ call.target
    rw [icount]
    exact inOrder.within call member
  single := inOrder.single

theorem InOrder.scheduled {r : RunningClock H} (inOrder : r.InOrder) {clock : Clock H}
    (spec : clock.Valid ∧ r.clock.SchedulesAtMostOne clock) :
    (r.withClock clock).InOrder ∧ r.clock.icount ≤ clock.icount := by
  obtain ⟨valid, rfl | ⟨new, _, later, isPending, icount, _⟩⟩ := spec
  · exact ⟨inOrder, le_rfl⟩
  · refine ⟨inOrder.withClock valid icount fun ev pending => ?_, icount.ge⟩
    rcases (isPending ev).mp pending with before | rfl
    · exact .inl before
    · exact .inr later

/-- Only one call is in progress. -/
theorem InOrder.alone {r : RunningClock H} (inOrder : r.InOrder) {call : FireCall}
    {outer : List FireCall} (inCall : r.calls = call :: outer) : outer = [] := by
  have single := inOrder.single
  rw [inCall, List.length_cons] at single
  exact List.length_eq_zero_iff.mp (by omega)

theorem InOrder.fire {r r' : RunningClock H} (inOrder : r.InOrder) (fits : r.clock.HeadFits)
    (stepped : r.step .fire = some r') :
    r'.InOrder ∧ r.clock.icount ≤ r'.clock.icount := by
  have spec := inOrder.valid.fire fits stepped
  obtain ⟨target, outer, ev, clock, inCall, ready, fired, rfl⟩ :=
    fire_eq_some inOrder.valid fits stepped
  simp only [Clock.fireReady, Bool.and_eq_true, decide_eq_true_eq] at ready
  obtain ⟨ev', clock', fired', -, wasPending, due, icount, -, pending⟩ :=
    inOrder.valid.clock.fireNext ready.1 fits
  obtain ⟨rfl, rfl⟩ : ev' = ev ∧ clock' = clock := by
    rw [fired] at fired'
    simp only [Option.some.injEq, Prod.mk.injEq, true_and] at fired'
    exact ⟨fired'.1.symm, fired'.2.symm⟩
  obtain rfl := inOrder.alone inCall
  constructor
  · constructor
    case valid => exact spec.valid
    case onTime => exact fun idle => absurd idle (List.cons_ne_nil _ _)
    case ahead =>
      intro other isPending
      change clock'.icount ≤ other.due
      rw [icount]
      rcases (pending other).mp isPending with ⟨before, _⟩ | ⟨_, rfl⟩
      · rw [due]
        exact inOrder.valid.clock.consistent.headDue_le before
      · exact Nat.le_add_right _ _
    case within =>
      intro call member
      obtain rfl := List.mem_singleton.mp member
      change clock'.icount ≤ target
      rw [icount, due]
      exact ready.2
    case single => exact le_rfl
  · change r.clock.icount ≤ clock'.icount
    rw [icount]
    exact inOrder.ahead ev'.core wasPending

theorem InOrder.handlerReturns {r r' : RunningClock H} (inOrder : r.InOrder)
    {error : Option String} (orderly : r.Orderly (.handlerReturns error))
    (stepped : r.step (.handlerReturns error) = some r') :
    r'.InOrder ∧ r.clock.icount ≤ r'.clock.icount := by
  have spec := inOrder.valid.handlerReturns stepped
  obtain ⟨target, outer, inCall, ⟨rfl, rfl⟩ | ⟨failed, rfl⟩⟩ := handlerReturns_eq_some stepped
  · refine ⟨⟨spec.valid, nofun, inOrder.ahead, fun call member => ?_, ?_⟩, le_rfl⟩
    · rcases List.mem_cons.mp member with rfl | isOuter
      · exact inOrder.within ⟨target, true⟩ (by rw [inCall]; exact List.mem_cons_self)
      · exact inOrder.within call (by rw [inCall]; exact List.mem_cons_of_mem _ isOuter)
    · rw [inOrder.alone inCall]
      exact le_rfl
  · obtain ⟨message, rfl⟩ := Option.ne_none_iff_exists'.mp failed
    refine ⟨⟨spec.valid, ?_, inOrder.ahead, fun call member => ?_, ?_⟩, le_rfl⟩
    · intro _ ev pending
      exact inOrder.valid.clock.consistent.later_of_not_ready orderly pending
    · exact inOrder.within call (by rw [inCall]; exact List.mem_cons_of_mem _ member)
    · rw [inOrder.alone inCall]
      exact Nat.zero_le 1

theorem InOrder.finish {r r' : RunningClock H} (inOrder : r.InOrder)
    (stepped : r.step .finish = some r') :
    r'.InOrder ∧ r.clock.icount ≤ r'.clock.icount := by
  have spec := inOrder.valid.finish stepped
  obtain ⟨target, outer, inCall, notReady, rfl⟩ := finish_eq_some stepped
  obtain rfl := inOrder.alone inCall
  have later : ∀ ev, r.clock.Pending ev → target < ev.due := fun ev =>
    inOrder.valid.clock.consistent.later_of_not_ready notReady
  refine ⟨⟨spec.valid, fun _ ev pending => later ev pending,
    fun ev pending => (later ev pending).le, nofun, Nat.zero_le 1⟩, ?_⟩
  exact inOrder.within ⟨target, false⟩ (by rw [inCall]; exact List.mem_cons_self)

/-- A call begins. -/
theorem inOrder_call {clock : Clock H} {target : Nat} (valid : clock.Valid)
    (ahead : ∀ ev, clock.Pending ev → clock.icount ≤ ev.due) (le : clock.icount ≤ target)
    (fits : target < countLimit) : InOrder (⟨clock, [⟨target, false⟩]⟩ : RunningClock H) := by
  constructor
  case valid =>
    refine ⟨valid, fun call member => ?_⟩
    obtain rfl := List.mem_singleton.mp member
    exact fits
  case onTime => exact fun idle => absurd idle (List.cons_ne_nil _ _)
  case ahead => exact ahead
  case within =>
    intro call member
    obtain rfl := List.mem_singleton.mp member
    exact le
  case single => exact le_rfl

/-- The counter can count one more unless it is full. -/
theorem Valid.succ_lt {r : RunningClock H} (valid : r.Valid) (notFull : r.clock.icount ≠ noneDue) :
    r.clock.icount + 1 < countLimit := by
  have fits := valid.clock.numbered.icount_lt
  simp only [noneDue] at notFull
  omega

theorem InOrder.tick {r r' : RunningClock H} (inOrder : r.InOrder) (idle : r.calls = [])
    (stepped : r.step .tick = some r') :
    r'.InOrder ∧ r.clock.icount ≤ r'.clock.icount := by
  have spec := inOrder.valid.tick stepped
  have onTime := spec.onTime nofun inOrder.onTime
  have later := inOrder.onTime idle
  simp only [RunningClock.step, inControl, idle, if_true] at stepped
  rcases r.clock.countTick_cases with ⟨error, counted⟩ | ⟨notFull, notDue, counted⟩ |
    ⟨notFull, counted⟩
  · rw [counted] at stepped
    cases stepped
    exact ⟨inOrder, le_rfl⟩
  · rw [counted] at stepped
    cases stepped
    refine ⟨⟨spec.valid, onTime, fun ev pending => (onTime idle ev pending).le, ?_,
      inOrder.single⟩, Nat.le_succ _⟩
    intro call member
    change call ∈ r.calls at member
    rw [idle] at member
    cases member
  · rw [counted] at stepped
    cases stepped
    have fits := inOrder.valid.succ_lt notFull
    exact ⟨inOrder_call (inOrder.valid.clock.withIcount fits) later le_rfl fits, Nat.le_succ _⟩

theorem advanceTarget_cases (c : Clock H) (n : Nat) :
    (countLimit ≤ c.icount + n ∧ ∃ error, c.advanceTarget n = .error error) ∨
      (c.icount + n < countLimit ∧ c.advanceTarget n = .ok (c.icount + n)) := by
  unfold Clock.advanceTarget Clock.add
  by_cases fits : c.icount + n < countLimit
  · rw [if_pos fits]
    exact .inr ⟨fits, rfl⟩
  · rw [if_neg fits]
    exact .inl ⟨Nat.not_lt.mp fits, _, rfl⟩

theorem InOrder.advance {r r' : RunningClock H} (inOrder : r.InOrder) (idle : r.calls = [])
    {n : DoubleWord} (stepped : r.step (.advance n) = some r') :
    r'.InOrder ∧ r.clock.icount ≤ r'.clock.icount := by
  simp only [RunningClock.step, inControl, idle, if_true] at stepped
  rcases advanceTarget_cases r.clock n.toNat with ⟨-, error, target⟩ | ⟨fits, target⟩
  · rw [target] at stepped
    cases stepped
    exact ⟨inOrder, le_rfl⟩
  · rw [target] at stepped
    cases stepped
    exact ⟨inOrder_call inOrder.valid.clock inOrder.ahead (Nat.le_add_right _ _) fits, le_rfl⟩

theorem InOrder.step {r r' : RunningClock H} (inOrder : r.InOrder) {action : ClockAction H}
    (allowed : r.Allowed action) (orderly : r.Orderly action)
    (stepped : r.step action = some r') :
    r'.InOrder ∧ r.clock.icount ≤ r'.clock.icount := by
  cases action with
  | at_ due name fn =>
    simp only [RunningClock.step] at stepped
    split at stepped
    · cases stepped
      exact inOrder.scheduled (inOrder.valid.clock.at_ allowed due.isLt name fn)
    · cases stepped
  | after delta name fn =>
    simp only [RunningClock.step] at stepped
    split at stepped
    · cases stepped
      exact inOrder.scheduled (inOrder.valid.clock.after allowed delta.toNat name fn)
    · cases stepped
  | every period name fn =>
    simp only [RunningClock.step] at stepped
    split at stepped
    · cases stepped
      exact inOrder.scheduled (inOrder.valid.clock.every allowed period.isLt name fn)
    · cases stepped
  | cancel id =>
    simp only [RunningClock.step] at stepped
    split at stepped
    · obtain ⟨found, clock, cancelled, valid, _, pending, icount, _⟩ :=
        inOrder.valid.clock.cancel id
      rw [cancelled] at stepped
      cases stepped
      exact ⟨inOrder.withClock valid icount fun ev isPending => .inl ((pending ev).mp isPending).1,
        icount.ge⟩
    · cases stepped
  | tick => exact inOrder.tick orderly stepped
  | advance n => exact inOrder.advance orderly stepped
  | fire => exact inOrder.fire allowed stepped
  | handlerReturns error => exact inOrder.handlerReturns orderly stepped
  | finish => exact inOrder.finish stepped

theorem Reached.inOrder {r : RunningClock H} (reached : Reached r) : r.InOrder := by
  induction reached with
  | new => exact inOrder_new
  | step before action allowed orderly stepped ih => exact (ih.step allowed orderly stepped).1
  | restore before taken idle snapshot exchanged restored ih sourceIh =>
    obtain ⟨valid, _, later⟩ := sourceIh.valid.clock.restore snapshot exchanged restored
    refine ⟨ih.valid.withClock valid, fun _ ev pending => (later ev pending).1,
      fun ev pending => (later ev pending).1.le, ?_, ih.single⟩
    intro call member
    change call ∈ RunningClock.calls _ at member
    rw [withClock, idle] at member
    cases member
  | restoreTo before idle icount ih =>
    refine ⟨ih.valid.withClock (ih.valid.clock.restoreTo icount.isLt),
      fun _ ev pending => absurd pending (Clock.not_pending_of_empty rfl ev),
      fun ev pending => absurd pending (Clock.not_pending_of_empty rfl ev), ?_, ih.single⟩
    intro call member
    change call ∈ RunningClock.calls _ at member
    rw [withClock, idle] at member
    cases member

theorem Ends.of_idle {r r' : RunningClock H} {trace : List (ClockEntry H)}
    (ends : Ends r trace r') (idle : r.calls = []) : trace = [] ∧ r' = r := by
  cases ends with
  | idle => exact ⟨rfl, rfl⟩
  | step busy => exact absurd idle busy

theorem Ends.inOrder {r r' : RunningClock H} {trace : List (ClockEntry H)}
    (ends : Ends r trace r') (inOrder : r.InOrder) :
    r'.InOrder ∧ r'.calls = [] ∧ r.clock.icount ≤ r'.clock.icount := by
  induction ends with
  | idle idle => exact ⟨inOrder, idle, le_rfl⟩
  | step busy action allowed orderly stepped rest ih =>
    obtain ⟨after, forward⟩ := inOrder.step allowed orderly stepped
    obtain ⟨last, idle, onwards⟩ := ih after
    exact ⟨last, idle, forward.trans onwards⟩

theorem Ends.fires_or_pending {r r' : RunningClock H} {trace : List (ClockEntry H)}
    (ends : Ends r trace r') (inOrder : r.InOrder) {ev : Event H} (pending : r.clock.Pending ev) :
    .fired ev.id ev.due ∈ trace ∨ .cancelled ev.id ∈ trace ∨ r'.clock.Pending ev := by
  induction ends with
  | idle => exact .inr (.inr pending)
  | step busy action allowed orderly stepped rest ih =>
    have effect := (inOrder.valid.step allowed stepped).effect
    rcases effect.pending_or inOrder.valid.clock.consistent pending with
      fired | cancelled | still
    · exact .inl (List.mem_append_left _ fired)
    · exact .inr (.inl (List.mem_append_left _ cancelled))
    · rcases ih (inOrder.step allowed orderly stepped).1 still with fired | cancelled | still
      · exact .inl (List.mem_append_right _ fired)
      · exact .inr (.inl (List.mem_append_right _ cancelled))
      · exact .inr (.inr still)

/-- A call in progress goes on to the same target, or returns at it, or fails. -/
theorem step_calls {r r' : RunningClock H} (inOrder : r.InOrder) {action : ClockAction H}
    (allowed : r.Allowed action) (orderly : r.Orderly action)
    (stepped : r.step action = some r') {call : FireCall} (inCall : r.calls = [call]) :
    (∃ handling, r'.calls = [⟨call.target, handling⟩]) ∨ .failed ∈ r.entries action ∨
      (r'.calls = [] ∧ r'.clock.icount = call.target) := by
  have kept (same : r'.calls = r.calls) : ∃ handling, r'.calls = [⟨call.target, handling⟩] :=
    ⟨call.handling, by rw [same, inCall]⟩
  cases action with
  | at_ | after | every =>
    simp only [RunningClock.step] at stepped
    split at stepped
    · cases stepped
      exact .inl (kept rfl)
    · cases stepped
  | cancel id =>
    simp only [RunningClock.step] at stepped
    split at stepped
    · split at stepped
      · cases stepped
        exact .inl (kept rfl)
      · cases stepped
    · cases stepped
  | tick | advance =>
    have idle : r.calls = [] := orderly
    rw [idle] at inCall
    cases inCall
  | fire =>
    obtain ⟨target, outer, ev, clock, isCall, -, -, rfl⟩ :=
      fire_eq_some inOrder.valid allowed stepped
    rw [isCall] at inCall
    cases inCall
    exact .inl ⟨true, rfl⟩
  | handlerReturns error =>
    obtain ⟨target, outer, isCall, ⟨rfl, rfl⟩ | ⟨failed, rfl⟩⟩ := handlerReturns_eq_some stepped
    · rw [isCall] at inCall
      cases inCall
      exact .inl ⟨false, rfl⟩
    · obtain ⟨message, rfl⟩ := Option.ne_none_iff_exists'.mp failed
      exact .inr (.inl List.mem_cons_self)
  | finish =>
    obtain ⟨target, outer, isCall, -, rfl⟩ := finish_eq_some stepped
    rw [isCall] at inCall
    cases inCall
    exact .inr (.inr ⟨rfl, rfl⟩)

/-- A call that nothing fails in reaches its target. -/
theorem Ends.reaches {r r' : RunningClock H} {trace : List (ClockEntry H)}
    (ends : Ends r trace r') (inOrder : r.InOrder) {call : FireCall} (inCall : r.calls = [call])
    (succeeded : .failed ∉ trace) : r'.clock.icount = call.target := by
  induction ends generalizing call with
  | idle idle =>
    rw [idle] at inCall
    cases inCall
  | step busy action allowed orderly stepped rest ih =>
    have after := (inOrder.step allowed orderly stepped).1
    have later : ClockEntry.failed ∉ _ := fun member => succeeded (List.mem_append_right _ member)
    rcases step_calls inOrder allowed orderly stepped inCall with
      ⟨handling, inCall'⟩ | failed | ⟨idle, reached⟩
    · have reached := ih after inCall' later
      exact reached
    · exact absurd (List.mem_append_left _ failed) succeeded
    · obtain ⟨-, rfl⟩ := rest.of_idle idle
      exact reached

theorem step_fire_withIcount (c : Clock H) (icount : Nat) (calls : List FireCall) :
    RunningClock.step ⟨{ c with icount }, calls⟩ .fire = RunningClock.step ⟨c, calls⟩ .fire := by
  unfold RunningClock.step
  dsimp only
  rw [c.fireNext_withIcount]
  rfl

theorem entries_fire_withIcount (c : Clock H) (icount : Nat) (calls : List FireCall) :
    entries ⟨{ c with icount }, calls⟩ .fire = entries ⟨c, calls⟩ .fire := by
  unfold entries
  dsimp only
  rw [c.fireNext_withIcount]

/-- An action of a call whose handler is not running is one of `fireDue`'s own. -/
theorem step_of_call {c : Clock H} {target : Nat} {action : ClockAction H} {r' : RunningClock H}
    (stepped : RunningClock.step ⟨c, [⟨target, false⟩]⟩ action = some r') :
    action = .fire ∨ action = .finish := by
  cases action with
  | fire => exact .inl rfl
  | finish => exact .inr rfl
  | at_ | after | every | cancel | tick | advance | handlerReturns =>
    simp [RunningClock.step, inControl] at stepped

/-- What the counter reads before the loop of `fireDue` makes no difference. -/
theorem Ends.withIcount {c : Clock H} {target : Nat} {trace : List (ClockEntry H)}
    {r' : RunningClock H} (ends : Ends ⟨c, [⟨target, false⟩]⟩ trace r') (icount : Nat) :
    Ends ⟨{ c with icount }, [⟨target, false⟩]⟩ trace r' := by
  cases ends with
  | idle idle => cases idle
  | step busy action allowed orderly stepped rest =>
    rcases step_of_call stepped with rfl | rfl
    · rw [← entries_fire_withIcount c icount]
      refine .step (List.cons_ne_nil _ _) .fire allowed orderly ?_ rest
      rw [step_fire_withIcount]
      exact stepped
    · exact .step (List.cons_ne_nil _ _) .finish allowed orderly stepped rest

/-- A call with nothing to fire only counts. -/
theorem ends_of_not_ready {c : Clock H} {target : Nat} (notReady : c.fireReady target = false)
    {trace : List (ClockEntry H)} {r' : RunningClock H} :
    Ends ⟨c, [⟨target, false⟩]⟩ trace r' ↔
      Ends (⟨{ c with icount := target }, []⟩ : RunningClock H) trace r' := by
  have finishes : RunningClock.step ⟨c, [⟨target, false⟩]⟩ .finish =
      some ⟨{ c with icount := target }, []⟩ := by
    simp [RunningClock.step, notReady]
  constructor
  · intro ends
    cases ends with
    | idle idle => cases idle
    | step busy action allowed orderly stepped rest =>
      rcases step_of_call stepped with rfl | rfl
      · simp [RunningClock.step, notReady] at stepped
      · rw [finishes] at stepped
        cases stepped
        exact rest
  · intro ends
    exact .step (List.cons_ne_nil _ _) .finish trivial trivial finishes ends

/-- A tick and an advance by one refuse together. -/
theorem Valid.tick_refuses {r : RunningClock H} (valid : r.Valid) :
    (∃ error, r.clock.countTick.1 = .error error) ↔
      ∃ error, r.clock.advanceTarget 1 = .error error := by
  by_cases full : r.clock.icount = noneDue
  · rcases advanceTarget_cases r.clock 1 with ⟨-, refused⟩ | ⟨fits, -⟩
    · have counted : r.clock.countTick = (.error "instruction counter would overflow", r.clock) :=
        if_pos full
      exact ⟨fun _ => refused, fun _ => ⟨_, congrArg Prod.fst counted⟩⟩
    · rw [full] at fits
      exact absurd fits (by decide)
  · have fits := valid.succ_lt full
    rcases advanceTarget_cases r.clock 1 with ⟨wraps, -⟩ | ⟨-, target⟩
    · exact absurd fits wraps.not_gt
    · constructor
      · rintro ⟨error, counted⟩
        simp only [Clock.countTick, if_neg full] at counted
        split at counted <;> cases counted
      · rintro ⟨error, refused⟩
        rw [target] at refused
        cases refused

theorem InOrder.completes_tick {r r' : RunningClock H} (inOrder : r.InOrder) (idle : r.calls = [])
    (trace : List (ClockEntry H)) :
    Completes .tick r trace r' ↔ Completes (.advance 1) r trace r' := by
  obtain ⟨c, calls⟩ := r
  obtain rfl : calls = [] := idle
  have one : (1 : DoubleWord).toNat = 1 := rfl
  unfold Completes
  simp only [RunningClock.step, inControl, if_true]
  by_cases full : c.icount = noneDue
  · -- Both refuse to count.
    have counted : c.countTick = (.error "instruction counter would overflow", c) := if_pos full
    rcases advanceTarget_cases c 1 with ⟨-, message, target⟩ | ⟨fits, -⟩
    · rw [counted, one, target]
      exact Iff.rfl
    · rw [full] at fits
      exact absurd fits (by decide)
  have fits := inOrder.valid.succ_lt full
  have target : c.advanceTarget 1 = .ok (c.icount + 1) := by
    rcases advanceTarget_cases c 1 with ⟨wraps, -⟩ | ⟨-, target⟩
    · exact absurd fits wraps.not_gt
    · exact target
  by_cases due : c.icount + 1 = c.nextDue
  · have counted : c.countTick =
        (.ok (some (c.icount + 1)), { c with icount := c.icount + 1 }) := by
      simp [Clock.countTick, full, due]
    rw [counted, one, target]
    simp only [Option.some.injEq, exists_eq_left']
    exact ⟨fun ends => ends.withIcount c.icount, fun ends => ends.withIcount (c.icount + 1)⟩
  · have counted : c.countTick = (.ok none, { c with icount := c.icount + 1 }) := by
      simp [Clock.countTick, full, due]
    have notReady : c.fireReady (c.icount + 1) = false := by
      refine Clock.not_ready fun nonempty => ?_
      have atHead := List.getElem?_eq_getElem nonempty
      have member := List.mem_of_getElem? atHead
      obtain ⟨ev, isEvent⟩ := inOrder.valid.clock.consistent.indexed.isEvent member
      obtain ⟨head, headPending, headDue⟩ := inOrder.valid.clock.consistent.exists_at_nextDue
        ⟨_, member, Clock.coreAt_eq_some isEvent⟩
      have later : c.icount < head.due := inOrder.onTime rfl head headPending
      have next : head.due = c.nextDue := headDue
      omega
    rw [counted, one, target]
    simp only [Option.some.injEq, exists_eq_left']
    exact (ends_of_not_ready notReady).symm

/-- In every state of a run in which a handler that fails leaves nothing else
due, the clock can be relied on. -/
theorem reached_dependable {r : RunningClock H} (reached : Reached r) : Dependable r := by
  have inOrder := reached.inOrder
  constructor
  case forward => exact fun action r' allowed orderly stepped =>
    (inOrder.step allowed orderly stepped).2
  case live =>
    intro id
    have queued := inOrder.valid.clock.consistent.live id
    constructor
    · rintro ⟨ref, member⟩
      obtain ⟨inQueue, hasId⟩ := (queued ref).mp member
      obtain ⟨ev, found, isId⟩ := Option.map_eq_some_iff.mp hasId
      exact ⟨ev, ⟨ref, inQueue, found⟩, isId⟩
    · rintro ⟨ev, ⟨ref, inQueue, found⟩, rfl⟩
      exact ⟨ref, (queued ref).mpr ⟨inQueue, by rw [found, Option.map_some]⟩⟩
  case budget =>
    intro idle max ev pending
    exact ⟨inOrder.onTime idle ev pending,
      inOrder.valid.clock.budget_le (inOrder.onTime idle) max pending⟩
  case tick => exact fun idle =>
    ⟨fun trace r' => inOrder.completes_tick idle trace, inOrder.valid.tick_refuses⟩
  case fires =>
    rintro idle n trace r' ⟨begun, stepped, ends⟩
    obtain ⟨begunInOrder, -⟩ := inOrder.advance idle stepped
    obtain ⟨lastInOrder, lastIdle, onwards⟩ := ends.inOrder begunInOrder
    have later := lastInOrder.onTime lastIdle
    simp only [RunningClock.step, inControl, idle, if_true] at stepped
    rcases advanceTarget_cases r.clock n.toNat with ⟨wraps, error, target⟩ | ⟨fits, target⟩
    · rw [target] at stepped
      cases stepped
      obtain ⟨rfl, rfl⟩ := ends.of_idle idle
      exact ⟨le_rfl, fun ev pending => .inr (.inr ⟨pending, later ev pending⟩), later,
        fun fits => absurd fits wraps.not_gt⟩
    · rw [target] at stepped
      cases stepped
      refine ⟨onwards, fun ev pending => ?_, later, fun _ succeeded =>
        ends.reaches begunInOrder rfl succeeded⟩
      rcases ends.fires_or_pending begunInOrder pending with fired | cancelled | still
      · exact .inl fired
      · exact .inr (.inl cancelled)
      · exact .inr (.inr ⟨still, later ev still⟩)

/-- The clock with events at two instructions, after the handler of the first has
failed at instruction 10. -/
def failedAtTen (first second : DoubleWord) : Option (RunningClock Unit) :=
  [.at_ first (ascii "a") (some ()), .at_ second (ascii "b") (some ()), .advance 10, .fire,
    .handlerReturns (some "failed")].foldlM RunningClock.step { clock := Clock.new }

/-- With both events due at 10 the second is still queued.  An advance fires it,
but a tick goes on to 11 and leaves it; from there the budget wraps, and the
advance that fires it puts the counter back to 10. -/
theorem failedAtTen_passed_over :
    (failedAtTen 10 10).map (fun r => (r.calls, r.clock.icount, r.clock.queuedIds)) =
        some ([], 10, [(some 2, some 0)]) ∧
      ((failedAtTen 10 10).bind fun r => [.advance 1, .fire].foldlM RunningClock.step r).map
        (fun r => (r.calls, r.clock.icount, r.clock.queuedIds)) = some ([⟨11, true⟩], 10, []) ∧
      ((failedAtTen 10 10).bind (RunningClock.step · .tick)).map
        (fun r => (r.calls, r.clock.icount, r.clock.queuedIds)) =
          some ([], 11, [(some 2, some 0)]) ∧
      ((failedAtTen 10 10).bind (RunningClock.step · .tick)).map
        (fun r => (r.clock.nextDue?, r.clock.budget 100)) = some (some 10, 100) ∧
      ((failedAtTen 10 10).bind fun r => [.tick, .advance 1, .fire].foldlM RunningClock.step r).map
        (fun r => (r.calls, r.clock.icount)) = some ([⟨12, true⟩], 10) := by
  refine ⟨?_, ?_, ?_, ?_, ?_⟩ <;> with_unfolding_all decide

/-- With the second due later, the clock that is left can be relied on. -/
theorem failedAtTen_dependable :
    ∃ r, failedAtTen 10 20 = some r ∧ r.clock.icount = 10 ∧ Dependable r := by
  set due : RunningClock Unit := ⟨Clock.twoEvents 10 20, [⟨10, false⟩]⟩ with isDue
  have first : RunningClock.step { clock := Clock.new } (.at_ 10 (ascii "a") (some ())) =
      some { clock := (Clock.new.at_ 10 (ascii "a") (some ())).2 } := rfl
  have second : RunningClock.step { clock := (Clock.new.at_ 10 (ascii "a") (some ())).2 }
      (.at_ 20 (ascii "b") (some ())) = some { clock := Clock.twoEvents 10 20 } := rfl
  have begun : RunningClock.step { clock := Clock.twoEvents 10 20 } (.advance 10) = some due := by
    have target : (Clock.twoEvents 10 20).advanceTarget 10 = .ok 10 := by with_unfolding_all decide
    have ten : (10 : DoubleWord).toNat = 10 := rfl
    simp only [RunningClock.step, inControl, if_true, ten, target]
    rfl
  have fires : (due.step .fire).map (fun r =>
      (r.calls, r.clock.icount, r.clock.fireReady r.clock.icount)) =
        some ([⟨10, true⟩], 10, false) := by
    with_unfolding_all decide
  obtain ⟨fired, stepped, isFired⟩ := Option.map_eq_some_iff.mp fires
  simp only [Prod.mk.injEq] at isFired
  obtain ⟨calls, icount, nothingDue⟩ := isFired
  have returned : fired.step (.handlerReturns (some "failed")) = some ⟨fired.clock, []⟩ := by
    simp only [RunningClock.step, calls]
  have fits : due.Allowed .fire := by
    intro ev isHead
    have head : (Clock.twoEvents 10 20).head?.map
        (fun ev => decide (ev.due + ev.period < countLimit)) = some true := by
      with_unfolding_all decide
    have sameHead : (Clock.twoEvents 10 20).head? = some ev := isHead
    rw [sameHead] at head
    exact of_decide_eq_true (Option.some.inj head)
  refine ⟨⟨fired.clock, []⟩, ?_, icount, reached_dependable ?_⟩
  · have ten : (10 : DoubleWord).toNat = 10 := rfl
    simp only [failedAtTen, List.foldlM_cons, first, second, begun, stepped, returned,
      Option.bind_eq_bind, Option.bind_some, List.foldlM_nil, Option.pure_def]
  · have scheduled : Reached { clock := Clock.twoEvents 10 20 } := by
      refine .step (.step .new (.at_ 10 (ascii "a") (some ())) ?_ trivial first)
        (.at_ 20 (ascii "b") (some ())) ?_ trivial second
      · unfold Allowed
        decide
      · unfold Allowed
        with_unfolding_all decide
    have firing : Reached fired :=
      .step (.step scheduled (.advance 10) trivial rfl begun) .fire fits trivial stepped
    exact .step firing (.handlerReturns (some "failed")) trivial nothingDue returned

end RunningClock

end GoRetroTv
