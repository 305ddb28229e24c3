import GoRetroTv.CpuQuietLines

/-!
# Taking an interrupt and returning from it

An interrupt is taken at the boundary between two instructions only, a line that
rises while an instruction executes does not change what it does, and ERET as
the first instruction at the vector gives the interrupted program back.
-/

namespace GoRetroTv

namespace Cpu

namespace Core

variable {β : Type}

/-- ERET. -/
def eret : Word :=
  0x42000018

/-- Two ticks of Count reach Compare. -/
def reachesCompare (c : Core β) : Bool :=
  decide (c.cop0 11 ≠ 0 ∧ (c.cop0 9 + 1 = c.cop0 11 ∨ c.cop0 9 + 2 = c.cop0 11))

/-- The interrupted program's state is back: everything but Count, Cause, EPC,
the external lines, the reservation and the timer's own request. -/
structure Returned (c c' : Core β) : Prop where
  pc : c'.pc = c.pc
  isa : c'.isa = c.isa
  gpr : c'.gpr = c.gpr
  hi : c'.hi = c.hi
  lo : c'.lo = c.lo
  status : c'.cop0 12 = c.cop0 12
  cop0 : ∀ register, register ≠ 9 → register ≠ 13 → register ≠ 14 →
    c'.cop0 register = c.cop0 register
  count : c'.cop0 9 = c.cop0 9 + 2
  delayed : c'.delayed = c.delayed
  reserved : c'.reserved = c.reserved
  timer : c'.timerPending = (c.timerPending || c.reachesCompare)

/-- The boundary pump, if there is one, succeeds and leaves the core at the
vector. -/
def StaysAtVector (beforeVector : Option (Pump β)) (c : Core β) : Prop :=
  ∀ pump ∈ beforeVector, (pump c.atVector).entry = none ∧ (pump c.atVector).result = .ok ()

/-- What the vector's first instruction starts from. -/
def arrival (beforeVector : Option (Pump β)) (c : Core β) : Core β :=
  (c.beginStep.acceptInterrupt beforeVector).1

theorem tickCount_count (c : Core β) : c.tickCount.cop0 9 = c.cop0 9 + 1 := by
  unfold tickCount
  dsimp only
  split <;> exact setCop0_self 9 _ c

/-- The state an accepted interrupt leaves for its handler. -/
structure Vectored (c c' : Core β) : Prop where
  gpr : c'.gpr = c.gpr
  hi : c'.hi = c.hi
  lo : c'.lo = c.lo
  isa : c'.isa = false
  pc : c'.pc &&& 3 = 0
  delayed : c'.delayed = c.delayed
  reserved : c'.reserved = c.reserved
  status : c'.cop0 12 = c.cop0 12 ||| 2
  epc : c'.cop0 14 = if c.isa then c.pc ||| 1 else c.pc
  count : c'.cop0 9 = c.cop0 9 + 2
  cop0 : ∀ register, register ≠ 9 → register ≠ 12 → register ≠ 13 → register ≠ 14 →
    c'.cop0 register = c.cop0 register
  timer : c'.timerPending = (c.timerPending || c.reachesCompare)

theorem tickCount_same (c : Core β) :
    c.tickCount.hi = c.hi ∧ c.tickCount.lo = c.lo ∧ c.tickCount.isa = c.isa ∧
      c.tickCount.pc = c.pc ∧ c.tickCount.delayed = c.delayed ∧
        c.tickCount.reserved = c.reserved := by
  unfold tickCount
  dsimp only
  split <;> exact ⟨rfl, rfl, rfl, rfl, rfl, rfl⟩

theorem serviceInterrupt_taken {c : Core β} (ready : c.interruptReady = true) :
    ∃ cause pc lines reservation, pc &&& 3 = 0 ∧
      c.serviceInterrupt.2 =
        { ((c.setCop0 13 cause).setCop0 14 (if c.isa then c.pc ||| 1 else c.pc)).setCop0 12
            (c.cop0 12 ||| 2) with
          pc, isa := false, pendingLines := lines, hasReservation := reservation } := by
  unfold serviceInterrupt
  rw [if_pos ready]
  refine ⟨_, _, _, _, ?_, rfl⟩
  split <;> rfl

theorem atVector_vectored {c : Core β} (accepts : c.Accepts) : Vectored c c.atVector := by
  have ready : c.tickCount.interruptReady = true := by
    rw [← serviceInterrupt_fst, ← beginStep_eq_tickCount accepts.1]
    exact accepts.2
  have vector : c.atVector = c.tickCount.serviceInterrupt.2.tickCount := by
    rw [atVector, beginStep_eq_tickCount accepts.1]
  obtain ⟨cause, vectorPc, lines, reservation, aligned, taken⟩ := serviceInterrupt_taken ready
  obtain ⟨hi, lo, isa, pc, delayed, reserved⟩ := c.tickCount_same
  have second := c.tickCount.serviceInterrupt.2.tickCount_same
  have count := c.tickCount.serviceInterrupt.2.tickCount_count
  have timer := c.tickCount.serviceInterrupt.2.tickCount_timerPending
  rw [← vector] at second count timer
  have others (register : Register) (notCount : register ≠ 9) :
      c.atVector.cop0 register = c.tickCount.serviceInterrupt.2.cop0 register := by
    rw [vector]
    exact tickCount_cop0 _ notCount
  have kept (register : Register) (notCount : register ≠ 9) :
      c.tickCount.cop0 register = c.cop0 register :=
    c.tickCount_cop0 notCount
  rw [taken] at second count timer others
  obtain ⟨secondHi, secondLo, secondIsa, secondPc, secondDelayed, secondReserved⟩ := second
  refine {
    gpr := c.atVector_gpr
    hi := secondHi.trans hi
    lo := secondLo.trans lo
    isa := secondIsa
    pc := ?_
    delayed := secondDelayed.trans delayed
    reserved := secondReserved.trans reserved
    status := ?_
    epc := ?_
    count := ?_
    cop0 := ?_
    timer := ?_ }
  · rw [secondPc]
    exact aligned
  · rw [others 12 (by decide), setCop0_self, kept 12 (by decide)]
  · rw [others 14 (by decide), setCop0_of_ne (by decide), setCop0_self, isa, pc]
  · rw [count, setCop0_of_ne (by decide), setCop0_of_ne (by decide), setCop0_of_ne (by decide),
      tickCount_count, BitVec.add_assoc]
    rfl
  · intro register notCount notStatus notCause notEpc
    rw [others register notCount, setCop0_of_ne notStatus, setCop0_of_ne notEpc,
      setCop0_of_ne notCause, kept register notCount]
  · have compare : c.tickCount.cop0 11 = c.cop0 11 := kept 11 (by decide)
    have again : c.cop0 9 + 1 + 1 = c.cop0 9 + 2 := BitVec.add_assoc _ _ _
    rw [timer, timerRequested]
    simp only [setCop0_of_ne (show (11 : Register) ≠ 12 by decide),
      setCop0_of_ne (show (11 : Register) ≠ 14 by decide),
      setCop0_of_ne (show (11 : Register) ≠ 13 by decide),
      setCop0_of_ne (show (9 : Register) ≠ 12 by decide),
      setCop0_of_ne (show (9 : Register) ≠ 14 by decide),
      setCop0_of_ne (show (9 : Register) ≠ 13 by decide)]
    rw [compare, tickCount_count, again]
    show (c.tickCount.timerPending || _) = _
    rw [tickCount_timerPending, timerRequested, reachesCompare, Bool.or_assoc, ← Bool.decide_or]
    simp only [and_or_left]

theorem Vectored.of_board {c c' : Core β} (vectored : Vectored c c') (bus : β) (lines : Byte) :
    Vectored c { c' with bus, pendingLines := lines } :=
  ⟨vectored.gpr, vectored.hi, vectored.lo, vectored.isa, vectored.pc, vectored.delayed,
    vectored.reserved, vectored.status, vectored.epc, vectored.count, vectored.cop0,
    vectored.timer⟩

theorem acceptInterrupt_vectored {c : Core β} (accepts : c.Accepts)
    {beforeVector : Option (Pump β)} (stays : c.StaysAtVector beforeVector) :
    (c.beginStep.acceptInterrupt beforeVector).2 = .ok () ∧
      Vectored c (c.arrival beforeVector) := by
  have vectored := atVector_vectored accepts
  unfold arrival
  rw [acceptInterrupt_of_accepts accepts]
  cases beforeVector with
  | none => exact ⟨rfl, vectored⟩
  | some pump =>
      obtain ⟨noEntry, succeeded⟩ := stays pump rfl
      refine ⟨succeeded, ?_⟩
      dsimp only
      rw [afterPump, noEntry]
      exact vectored.of_board _ _

/-- The effect of ERET where ERL is clear. -/
theorem execute32_eret {c : Core β} (ops : BusOps β) (noError : c.cop0 12 &&& 4 = 0) :
    c.execute32 ops eret =
      (c.setCop0 12 (c.cop0 12 &&& ~~~2), .ok {
        target := c.cop0 14 &&& ~~~1
        isa := c.cop0 14 &&& 1 != 0
        immediate := true }) := by
  have notError : ¬ (c.cop0 12 &&& 4 != 0) = true := by
    rw [noError]
    decide
  have isOperation : (Mips32.rs eret).toNat = 16 := rfl
  show c.coprocessor0 eret = _
  unfold coprocessor0
  rw [isOperation]
  simp only [eret, bne_self_eq_false, Bool.false_eq_true, if_false, if_neg notError]
  rfl

theorem word_or_zero (v : Word) : v ||| 0 = v :=
  BitVec.or_zero

theorem or_two_and_four {status : Word} (noError : status.getLsbD 2 = false) :
    (status ||| 2) &&& 4 = 0 := by
  have bit : status &&& 4 = 0 := (and_twoPow_eq_zero_iff status 2 (by decide)).mpr noError
  rw [BitVec.and_or_distrib_right, bit]
  rfl

/-- Setting EXL and clearing it again. -/
theorem or_two_and_not_two {status : Word} (noException : status.getLsbD 1 = false) :
    (status ||| 2) &&& ~~~2 = status := by
  have bit : status &&& 2 = 0 := (and_twoPow_eq_zero_iff status 1 (by decide)).mpr noException
  rw [BitVec.and_or_distrib_right, BitVec.and_not_self, word_or_zero]
  have split : status &&& ~~~2 ||| status &&& 2 = status := by
    rw [← BitVec.and_or_distrib_left, BitVec.or_comm, BitVec.or_not_self, BitVec.and_allOnes]
  rwa [bit, word_or_zero] at split

/-- An even address comes back from EPC, whose lowest bit is the instruction
set. -/
theorem epc_target {pc : Word} (even : pc &&& 1 = 0) (isa : Bool) :
    (if isa then pc ||| 1 else pc) &&& ~~~1 = pc ∧
      ((if isa then pc ||| 1 else pc) &&& 1 != 0) = isa := by
  have kept : pc &&& ~~~1 = pc := by
    have split : pc &&& ~~~1 ||| pc &&& 1 = pc := by
      rw [← BitVec.and_or_distrib_left, BitVec.or_comm, BitVec.or_not_self, BitVec.and_allOnes]
    rwa [even, word_or_zero] at split
  cases isa with
  | true =>
      constructor
      · rw [if_pos rfl, BitVec.and_or_distrib_right, BitVec.and_not_self, word_or_zero, kept]
      · rw [if_pos rfl, BitVec.and_or_distrib_right, even]
        rfl
  | false =>
      constructor
      · rw [if_neg (by decide), kept]
      · rw [if_neg (by decide), even]
        rfl

/-- ERET as the handler gives the interrupted program back. -/
theorem step_returned {c : Core β} {ops : BusOps β} (even : c.pc &&& 1 = 0) (zero : c.gpr 0 = 0)
    (accepts : c.Accepts) {beforeVector : Option (Pump β)}
    (stays : c.StaysAtVector beforeVector)
    (handler : ((c.arrival beforeVector).load ops (c.arrival beforeVector).pc .word).1 = eret) :
    (c.stepWithInterruptBoundary ops beforeVector).2 = .ok () ∧
      Returned c (c.stepWithInterruptBoundary ops beforeVector).1 := by
  obtain ⟨succeeded, vectored⟩ := acceptInterrupt_vectored accepts stays
  obtain ⟨unblocked, _⟩ := (accepts_iff_deliverable c).mp accepts
  generalize isArrival : c.arrival beforeVector = a at *
  have accepted : c.beginStep.acceptInterrupt beforeVector = (a, .ok ()) :=
    Prod.ext isArrival succeeded
  have noError : (a.load ops a.pc .word).2.cop0 12 &&& 4 = 0 := by
    show a.cop0 12 &&& 4 = 0
    rw [vectored.status]
    exact or_two_and_four unblocked.noError
  have executed : a.execute ops =
      ((a.load ops a.pc .word).2.setCop0 12 (a.cop0 12 &&& ~~~2), .ok ({
        target := a.cop0 14 &&& ~~~1
        isa := a.cop0 14 &&& 1 != 0
        immediate := true }, 4)) := by
    unfold execute
    rw [vectored.isa, if_neg (by decide), vectored.pc, if_neg (by decide)]
    cases fetched : a.load ops a.pc .word with
    | mk word c' =>
        rw [fetched] at handler noError
        dsimp only at handler noError ⊢
        rw [handler, execute32_eret ops noError]
        have same : c'.cop0 = a.cop0 := by
          have : c' = (a.load ops a.pc .word).2 := by rw [fetched]
          rw [this]
          rfl
        rw [same]
  have noSlot : a.delayed.armed = false := by
    rw [vectored.delayed]
    exact accepts.1
  obtain ⟨target, isa⟩ := epc_target even c.isa
  rw [← vectored.epc] at target isa
  have stepped : c.stepWithInterruptBoundary ops beforeVector =
      ({ (a.load ops a.pc .word).2.setCop0 12 (a.cop0 12 &&& ~~~2) with
          pc := c.pc, isa := c.isa }.clearZero, .ok ()) := by
    unfold stepWithInterruptBoundary
    rw [accepted]
    dsimp only
    rw [executed]
    dsimp only
    unfold follow
    rw [if_neg (by show ¬ a.delayed.armed = true; simp [noSlot]), if_neg (by simp), if_pos rfl,
      target, isa]
  rw [stepped]
  refine ⟨rfl, ?_⟩
  refine {
    pc := rfl
    isa := rfl
    gpr := ?_
    hi := vectored.hi
    lo := vectored.lo
    status := ?_
    cop0 := ?_
    count := ?_
    delayed := vectored.delayed
    reserved := vectored.reserved
    timer := vectored.timer }
  · show Function.update a.gpr 0 0 = c.gpr
    rw [vectored.gpr, ← zero, Function.update_eq_self]
  · show (((a.load ops a.pc .word).2.setCop0 12 (a.cop0 12 &&& ~~~2)).cop0 12) = _
    rw [setCop0_self, vectored.status, or_two_and_not_two unblocked.noException]
  · intro register notCount notCause notEpc
    show (((a.load ops a.pc .word).2.setCop0 12 (a.cop0 12 &&& ~~~2)).cop0 register) = _
    by_cases isStatus : register = 12
    · rw [isStatus, setCop0_self, vectored.status, or_two_and_not_two unblocked.noException]
    · rw [setCop0_of_ne isStatus]
      exact vectored.cop0 register notCount isStatus notCause notEpc
  · show (((a.load ops a.pc .word).2.setCop0 12 (a.cop0 12 &&& ~~~2)).cop0 9) = _
    rw [setCop0_of_ne (by decide)]
    exact vectored.count

/-- In every state of every run an interrupt is taken only where no delay slot
is due, IE is set and EXL and ERL are clear; a step that takes none executes its
instruction whatever lines are pending or rise meanwhile; and ERET as the
handler of one that is taken gives the interrupted program back. -/
theorem run_interrupts_precise (ops : BusOps β) (bus : β) {pc : Word} (even : pc &&& 1 = 0)
    (actions : List (Action β)) (handovers : EvenHandovers ops (Cpu.new bus pc) actions)
    (beforeVector : Option (Pump β)) :
    let c := (Cpu.new bus pc).run ops actions
    (c.Accepts → c.Deliverable) ∧
    (¬ c.Accepts → quieten (c.stepWithInterruptBoundary ops beforeVector) =
      c.withoutLines.stepWithInterruptBoundary ops.quiet beforeVector) ∧
    (c.Accepts → c.StaysAtVector beforeVector →
      ((c.arrival beforeVector).load ops (c.arrival beforeVector).pc .word).1 = eret →
      (c.stepWithInterruptBoundary ops beforeVector).2 = .ok () ∧
        Returned c (c.stepWithInterruptBoundary ops beforeVector).1) := by
  intro c
  have evenFlow : c.EvenFlow := run_evenFlow ⟨even, fun isArmed => by cases isArmed⟩ handovers
  have zero : c.gpr 0 = 0 := run_zero rfl actions
  refine ⟨(accepts_iff_deliverable c).mp, ?_, ?_⟩
  · exact fun refused => step_quiet refused ops beforeVector
  · exact fun accepts stays handler => step_returned evenFlow.pc zero accepts stays handler

/-- A program that enables line zero, sets Compare to five and has ERET at the
vector. -/
def enablingProgram : BusOps Unit where
  read address _ _ :=
    { bus := ()
      value :=
        if address = 0xbfc00000 then 0x34010101
        else if address = 0xbfc00004 then 0x40816000
        else if address = 0xbfc00008 then 0x34020005
        else if address = 0xbfc0000c then 0x40825800
        else if address = 0x80000180 then eret
        else 0 }
  write _ _ _ _ := ((), 0)

/-- The program once Status is written. -/
def enabled : Core Unit :=
  { Cpu.new () 0xbfc00008 with
    gpr := Function.update (Function.update (Function.update (fun _ => 0) 1 0x101) 0 0) 0 0
    cop0 := Function.update (Function.update (Function.update (fun _ => 0) 9 1) 9 2) 12 0x101 }

/-- The program once Compare is written. -/
def compared : Core Unit :=
  { enabled with
    pc := 0xbfc00010
    gpr := Function.update (Function.update (Function.update enabled.gpr 2 5) 0 0) 0 0
    cop0 := Function.update (Function.update (Function.update enabled.cop0 9 3) 9 4) 11 5 }

theorem run_enabled :
    (Cpu.new () 0xbfc00000).run enablingProgram [.step none, .step none] = enabled := by
  have first : (Cpu.new () 0xbfc00000).perform enablingProgram (.step none) =
      { Cpu.new () 0xbfc00004 with
        gpr := Function.update (Function.update (fun _ => 0) 1 0x101) 0 0
        cop0 := Function.update (fun _ => 0) 9 1 } := rfl
  rw [run, List.foldl_cons, first]
  rfl

theorem run_compared :
    enabled.run enablingProgram [.step none, .step none] = compared := by
  have first : enabled.perform enablingProgram (.step none) =
      { enabled with
        pc := 0xbfc0000c
        gpr := Function.update (Function.update enabled.gpr 2 5) 0 0
        cop0 := Function.update enabled.cop0 9 3 } := rfl
  rw [run, List.foldl_cons, first]
  rfl

theorem run_interrupted :
    (Cpu.new () 0xbfc00000).run enablingProgram
        [.step none, .step none, .step none, .step none, .interrupt 0] =
      compared.interrupt 0 := by
  rw [show ([.step none, .step none, .step none, .step none, .interrupt 0] : List (Action Unit)) =
      [.step none, .step none] ++ ([.step none, .step none] ++ [.interrupt 0]) from rfl,
    run_append, run_append, run_enabled, run_compared]
  rfl

theorem enabling_handovers (c : Core Unit) :
    EvenHandovers enablingProgram c
      [.step none, .step none, .step none, .step none, .interrupt 0] := by
  simp [EvenHandovers, handover]

/-- The interrupted program gets its registers back. -/
theorem enabling_run_precise :
    (compared.interrupt 0).Accepts ∧
      ((compared.interrupt 0).stepWithInterruptBoundary enablingProgram none).2 = .ok () ∧
        Returned (compared.interrupt 0)
          ((compared.interrupt 0).stepWithInterruptBoundary enablingProgram none).1 := by
  have accepts : (compared.interrupt 0).Accepts := by decide
  have precise := run_interrupts_precise enablingProgram () (show (0xbfc00000 : Word) &&& 1 = 0 from rfl)
    _ (enabling_handovers _) none
  rw [run_interrupted] at precise
  exact ⟨accepts, precise.2.2 accepts (fun pump isPump => by cases isPump) rfl⟩

/-- The state after an interrupt at `c` whose handler is ERET. -/
def interruptedAndReturned (c : Core Unit) : Core Unit :=
  (c.stepWithInterruptBoundary enablingProgram none).1

/-- Between an interrupt and its return Count may reach Compare, which raises
the timer's request; and a program entered at an odd address is returned to in
the other instruction set. -/
theorem return_raises_timer_or_switches :
    (∃ actions : List (Action Unit),
      let c := (Cpu.new () 0xbfc00000).run enablingProgram actions
      c.Accepts ∧ c.timerPending = false ∧ (interruptedAndReturned c).timerPending = true) ∧
    ∃ actions : List (Action Unit),
      let c := (Cpu.new () 0xbfc00000).run enablingProgram actions
      c.Accepts ∧ c.pc = 0xbfc20001 ∧ c.isa = false ∧
        (interruptedAndReturned c).pc = 0xbfc20000 ∧ (interruptedAndReturned c).isa = true := by
  constructor
  · refine ⟨[.step none, .step none, .step none, .step none, .interrupt 0], ?_⟩
    rw [run_interrupted]
    exact ⟨by decide, rfl, by decide⟩
  · refine ⟨[.step none, .step none] ++
      [.pump fun _ => { bus := (), entry := some 0xbfc20001 }, .interrupt 0], ?_⟩
    rw [run_append, run_enabled]
    exact ⟨by decide, rfl, rfl, by decide, by decide⟩

end Core

end Cpu

end GoRetroTv
