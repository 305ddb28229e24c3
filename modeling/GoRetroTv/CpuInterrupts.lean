import GoRetroTv.CpuFlow

/-!
# Delivery of interrupts

An external line stays pending until a step accepts an interrupt.  Accepting
clears every pending line, also one that Status masks at that moment, so a line
is sure to be delivered only in runs where no masked line is pending when an
interrupt is accepted.
-/

namespace GoRetroTv

namespace Cpu

namespace Core

variable {β : Type}

def linePending (ip : Fin 8) (c : Core β) : Bool :=
  c.pendingLines.getLsbD ip

/-- Bit `IM ip` of Status. -/
def lineEnabled (ip : Fin 8) (c : Core β) : Bool :=
  (c.cop0 12).getLsbD (8 + ip)

/-- A step of this core takes an interrupt. -/
def Accepts (c : Core β) : Prop :=
  c.delayed.armed = false ∧ c.beginStep.serviceInterrupt.1 = true

instance (c : Core β) : Decidable c.Accepts :=
  inferInstanceAs (Decidable (_ ∧ _))

/-- The timer requests an interrupt once Count has been stepped. -/
def timerRequested (c : Core β) : Bool :=
  c.timerPending || decide (c.cop0 11 ≠ 0 ∧ c.cop0 9 + 1 = c.cop0 11)

/-- Nothing but the mask keeps a request back: no delay slot is due, IE is set,
EXL and ERL are clear. -/
structure Unblocked (c : Core β) : Prop where
  noSlot : c.delayed.armed = false
  enabled : (c.cop0 12).getLsbD 0 = true
  noException : (c.cop0 12).getLsbD 1 = false
  noError : (c.cop0 12).getLsbD 2 = false

/-- Some request is enabled and gets through. -/
structure Deliverable (c : Core β) : Prop extends Unblocked c where
  request : ∃ ip : Fin 8, c.lineEnabled ip ∧ (c.linePending ip ∨ ip = 7 ∧ c.timerRequested)

theorem beginStep_eq_tickCount {c : Core β} (noSlot : c.delayed.armed = false) :
    c.beginStep = c.tickCount := by
  simp [beginStep, noSlot]

theorem setCop0_self (register : Register) (value : Word) (c : Core β) :
    (c.setCop0 register value).cop0 register = value := by
  simp [setCop0]

theorem setCop0_of_ne {register other : Register} (ne : other ≠ register) (value : Word)
    (c : Core β) : (c.setCop0 register value).cop0 other = c.cop0 other := by
  simp [setCop0, ne]

theorem tickCount_cop0 (c : Core β) {register : Register} (other : register ≠ 9) :
    c.tickCount.cop0 register = c.cop0 register := by
  unfold tickCount
  dsimp only
  split
  · exact setCop0_of_ne other _ c
  · exact setCop0_of_ne other _ c

theorem tickCount_pc (c : Core β) : c.tickCount.pc = c.pc := by
  unfold tickCount
  dsimp only
  split <;> rfl

@[simp]
theorem tickCount_pendingLines (c : Core β) : c.tickCount.pendingLines = c.pendingLines := by
  unfold tickCount
  dsimp only
  split <;> rfl

@[simp]
theorem tickCount_timerPending (c : Core β) : c.tickCount.timerPending = c.timerRequested := by
  have compare : (c.setCop0 9 (c.cop0 9 + 1)).cop0 11 = c.cop0 11 :=
    setCop0_of_ne (by decide) _ c
  have count : (c.setCop0 9 (c.cop0 9 + 1)).cop0 9 = c.cop0 9 + 1 :=
    setCop0_self 9 _ c
  unfold tickCount timerRequested
  dsimp only
  rw [compare, count]
  split
  next reached => rw [decide_eq_true reached, Bool.or_true]
  next notReached =>
    rw [decide_eq_false notReached, Bool.or_false]
    rfl

/-- Cause shows the external lines from bit 8 up, the timer on the highest. -/
theorem requests_getLsbD (c : Core β) (ip : Fin 8) :
    c.requests.getLsbD (8 + ip) = (c.linePending ip || (ip = 7 && c.timerPending)) := by
  have shifted : (c.pendingLines.setWidth 32 <<< 8).getLsbD (8 + ip) = c.linePending ip := by
    have bound : 8 + ip.val < 32 := by omega
    simp [linePending, bound]
  have timer : ∀ ip : Fin 8, ((1 : Word) <<< 15).getLsbD (8 + ip) = decide (ip = 7) := by
    decide
  unfold requests
  dsimp only
  split
  next pending => rw [BitVec.getLsbD_or, shifted, timer, pending, Bool.and_true]
  next notPending => rw [shifted]; simp [notPending]

theorem requests_getLsbD_out (c : Core β) {bit : Nat} (outside : bit < 8 ∨ 16 ≤ bit) :
    c.requests.getLsbD bit = false := by
  have shifted : (c.pendingLines.setWidth 32 <<< 8).getLsbD bit = false := by
    rcases outside with low | high
    · simp [BitVec.getLsbD_shiftLeft, low]
    · have : 8 ≤ bit - 8 := by omega
      simp [BitVec.getLsbD_shiftLeft, BitVec.getLsbD_of_ge _ _ this]
  have timer : ((1 : Word) <<< 15).getLsbD bit = false := by
    rw [show ((1 : Word) <<< 15) = BitVec.twoPow 32 15 by decide, BitVec.getLsbD_twoPow]
    simp
    omega
  unfold requests
  dsimp only
  split
  · rw [BitVec.getLsbD_or, shifted, timer]
    rfl
  · exact shifted

theorem ne_zero_iff_getLsbD (v : Word) : v ≠ 0 ↔ ∃ bit, v.getLsbD bit = true := by
  constructor
  · intro notZero
    by_contra none
    apply notZero
    apply BitVec.eq_of_getLsbD_eq
    intro bit _
    refine Eq.trans ?_ BitVec.getLsbD_zero.symm
    exact Bool.eq_false_iff.mpr fun isSet => none ⟨bit, isSet⟩
  · rintro ⟨bit, isSet⟩ rfl
    simp at isSet

theorem enabled_requests_ne_zero (c : Core β) :
    c.cop0 12 &&& c.requests &&& 0xff00 ≠ 0 ↔
      ∃ ip : Fin 8, c.lineEnabled ip ∧ (c.linePending ip ∨ ip = 7 ∧ c.timerPending) := by
  rw [ne_zero_iff_getLsbD]
  constructor
  · rintro ⟨bit, isSet⟩
    rw [BitVec.getLsbD_and, BitVec.getLsbD_and] at isSet
    simp only [Bool.and_eq_true] at isSet
    obtain ⟨⟨enabled, requested⟩, _⟩ := isSet
    have inside : 8 ≤ bit ∧ bit < 16 := by
      by_contra outside
      rw [requests_getLsbD_out c (by omega)] at requested
      cases requested
    have bitEq : bit = 8 + (⟨bit - 8, by omega⟩ : Fin 8).val := by
      simp only
      omega
    rw [bitEq] at enabled requested
    rw [requests_getLsbD] at requested
    exact ⟨_, enabled, by simpa using requested⟩
  · rintro ⟨ip, enabled, requested⟩
    refine ⟨8 + ip, ?_⟩
    have unmasked : ∀ ip : Fin 8, (0xff00 : Word).getLsbD (8 + ip) = true := by
      decide
    rw [BitVec.getLsbD_and, BitVec.getLsbD_and, requests_getLsbD, unmasked]
    unfold lineEnabled at enabled
    rw [enabled]
    simpa using requested

theorem and_twoPow_eq_zero_iff (v : Word) (bit : Nat) (bound : bit < 32) :
    v &&& BitVec.twoPow 32 bit = 0 ↔ v.getLsbD bit = false := by
  rw [BitVec.and_twoPow]
  split
  next isSet =>
    have notZero : BitVec.twoPow 32 bit ≠ 0 := by
      rw [ne_zero_iff_getLsbD]
      exact ⟨bit, by simp [bound]⟩
    rw [isSet]
    exact iff_of_false notZero (by simp)
  next notSet => simpa using notSet

theorem and_one_eq_zero_iff_getLsbD (v : Word) : v &&& 1 = 0 ↔ v.getLsbD 0 = false :=
  and_twoPow_eq_zero_iff v 0 (by decide)

theorem and_six_eq_zero_iff (v : Word) :
    v &&& 6 = 0 ↔ v.getLsbD 1 = false ∧ v.getLsbD 2 = false := by
  rw [show (6 : Word) = BitVec.twoPow 32 1 ||| BitVec.twoPow 32 2 by decide,
    BitVec.and_or_distrib_left, ← and_twoPow_eq_zero_iff v 1 (by decide),
    ← and_twoPow_eq_zero_iff v 2 (by decide)]
  exact BitVec.or_eq_zero_iff

theorem interruptReady_iff (c : Core β) :
    c.interruptReady = true ↔
      (c.cop0 12).getLsbD 0 = true ∧ (c.cop0 12).getLsbD 1 = false ∧
        (c.cop0 12).getLsbD 2 = false ∧
          ∃ ip : Fin 8, c.lineEnabled ip ∧ (c.linePending ip ∨ ip = 7 ∧ c.timerPending) := by
  rw [← enabled_requests_ne_zero, ← and_assoc (a := (c.cop0 12).getLsbD 1 = false),
    ← and_six_eq_zero_iff]
  have enabled : (c.cop0 12).getLsbD 0 = true ↔ ¬ c.cop0 12 &&& 1 = 0 := by
    rw [and_one_eq_zero_iff_getLsbD, Bool.not_eq_false]
  have requested : c.cop0 12 &&& c.requests &&& 0xff00 ≠ 0 → c.requests ≠ 0 := by
    rintro notZero isZero
    apply notZero
    rw [isZero, show c.cop0 12 &&& 0 = 0 from BitVec.and_zero]
    rfl
  rw [enabled]
  simp only [interruptReady, Bool.not_eq_true', Bool.or_eq_false_iff, beq_eq_false_iff_ne,
    bne_eq_false_iff_eq]
  constructor
  · rintro ⟨_, ⟨enabled, noException⟩, request⟩
    exact ⟨enabled, noException, request⟩
  · rintro ⟨enabled, noException, request⟩
    exact ⟨requested request, ⟨enabled, noException⟩, request⟩

theorem serviceInterrupt_fst (c : Core β) : c.serviceInterrupt.1 = c.interruptReady := by
  unfold serviceInterrupt
  split
  next ready => rw [ready]
  next notReady => simpa using notReady

/-- A step takes an interrupt exactly when Status and the requests allow it. -/
theorem accepts_iff_deliverable (c : Core β) : c.Accepts ↔ c.Deliverable := by
  have ticked (noSlot : c.delayed.armed = false) :
      c.beginStep.serviceInterrupt.1 = true ↔
        (c.cop0 12).getLsbD 0 = true ∧ (c.cop0 12).getLsbD 1 = false ∧
          (c.cop0 12).getLsbD 2 = false ∧
            ∃ ip : Fin 8, c.lineEnabled ip ∧
              (c.linePending ip ∨ ip = 7 ∧ c.timerRequested) := by
    have status := c.tickCount_cop0 (show (12 : Register) ≠ 9 by decide)
    rw [serviceInterrupt_fst, beginStep_eq_tickCount noSlot, interruptReady_iff]
    simp only [lineEnabled, linePending, status, tickCount_pendingLines, tickCount_timerPending]
  constructor
  · rintro ⟨noSlot, ready⟩
    obtain ⟨enabled, noException, noError, request⟩ := (ticked noSlot).mp ready
    exact ⟨⟨noSlot, enabled, noException, noError⟩, request⟩
  · rintro ⟨⟨noSlot, enabled, noException, noError⟩, request⟩
    exact ⟨noSlot, (ticked noSlot).mpr ⟨enabled, noException, noError, request⟩⟩

theorem interrupt_linePending (ip : Fin 8) (c : Core β) : (c.interrupt ip).linePending ip := by
  have raised : ∀ ip : Fin 8, ((1 : Byte) <<< ip.val).getLsbD ip = true := by decide
  simp only [linePending, interrupt, raise, BitVec.getLsbD_or, raised, Bool.or_true]

theorem raise_linePending {ip : Fin 8} {c : Core β} (pending : c.linePending ip) (lines : Byte) :
    (c.raise lines).linePending ip := by
  unfold linePending at pending ⊢
  rw [raise, BitVec.getLsbD_or, pending, Bool.true_or]

theorem afterPump_linePending {ip : Fin 8} {c : Core β} (pending : c.linePending ip)
    (pumped : Pumped β) : (c.afterPump pumped).linePending ip := by
  have served : (raise pumped.raised { c with bus := pumped.bus }).linePending ip :=
    raise_linePending pending pumped.raised
  unfold afterPump
  dsimp only
  split
  · exact served
  · unfold enter
    split
    · exact served
    · exact served

theorem beginStep_pendingLines (c : Core β) : c.beginStep.pendingLines = c.pendingLines := by
  unfold beginStep
  split
  · exact c.tickCount_pendingLines
  · rfl

theorem beginStep_delayed (c : Core β) : c.beginStep.delayed = c.delayed := by
  unfold beginStep tickCount
  dsimp only
  split
  · split <;> rfl
  · rfl

theorem follow_pendingLines (effect : Branch) (length : Word) (c : Core β) :
    (c.follow effect length).1.pendingLines = c.pendingLines := by
  unfold follow
  split
  · split <;> rfl
  · split
    · rfl
    · split <;> rfl

/-- The core at the vector, before the boundary pump. -/
def atVector (c : Core β) : Core β :=
  c.beginStep.serviceInterrupt.2.tickCount

theorem acceptInterrupt_of_accepts {c : Core β} (accepts : c.Accepts)
    (beforeVector : Option (Pump β)) :
    c.beginStep.acceptInterrupt beforeVector =
      match beforeVector with
      | none => (c.atVector, .ok ())
      | some pump => (c.atVector.afterPump (pump c.atVector), (pump c.atVector).result) := by
  have noSlot : c.beginStep.delayed.armed = false := by
    rw [beginStep_delayed]
    exact accepts.1
  have ready := accepts.2
  unfold acceptInterrupt atVector
  rw [if_neg (by simp [noSlot])]
  cases serviced : c.beginStep.serviceInterrupt with
  | mk accepted c' =>
      rw [serviced] at ready
      cases ready
      rfl

theorem acceptInterrupt_of_not_accepts {c : Core β} (refused : ¬ c.Accepts)
    (beforeVector : Option (Pump β)) :
    c.beginStep.acceptInterrupt beforeVector = (c.beginStep, .ok ()) := by
  unfold acceptInterrupt
  split
  · rfl
  next noSlot =>
    rw [beginStep_delayed, Bool.not_eq_true] at noSlot
    have notReady : c.beginStep.interruptReady = false := by
      rw [← serviceInterrupt_fst, ← Bool.not_eq_true]
      exact fun ready => refused ⟨noSlot, ready⟩
    simp [serviceInterrupt, notReady]

/-- A step that takes no interrupt drops no line. -/
theorem step_linePending {ip : Fin 8} {c : Core β} (pending : c.linePending ip)
    (refused : ¬ c.Accepts) (ops : BusOps β) (beforeVector : Option (Pump β)) :
    (c.stepWithInterruptBoundary ops beforeVector).1.linePending ip := by
  have begun : c.beginStep.linePending ip := by
    rwa [linePending, beginStep_pendingLines]
  have kept : (c.beginStep.execute ops).1.linePending ip :=
    (execute_completes ops c.beginStep).frame.lines ip begun
  unfold stepWithInterruptBoundary
  rw [acceptInterrupt_of_not_accepts refused]
  dsimp only
  split
  next executed => rwa [executed] at kept
  next executed =>
    rw [executed] at kept
    rwa [linePending, follow_pendingLines]

/-- Where an interrupt is taken, no pending line is masked. -/
def NoMaskedLine (c : Core β) : Prop :=
  c.Deliverable → ∀ ip : Fin 8, c.linePending ip → c.lineEnabled ip

/-- Every step of a run starts where no masked line would be dropped. -/
def RunsUnmasked (ops : BusOps β) (c : Core β) (actions : List (Action β)) : Prop :=
  ∀ before beforeVector after, actions = before ++ .step beforeVector :: after →
    (c.run ops before).NoMaskedLine

/-- The run takes an interrupt in a step that starts with the line enabled. -/
def TakenWithLine (ops : BusOps β) (ip : Fin 8) (c : Core β) (actions : List (Action β)) : Prop :=
  ∃ before beforeVector after, actions = before ++ .step beforeVector :: after ∧
    (c.run ops before).Accepts ∧ (c.run ops before).lineEnabled ip

theorem TakenWithLine.cons {ops : BusOps β} {ip : Fin 8} {c : Core β} {action : Action β}
    {actions : List (Action β)} (taken : TakenWithLine ops ip (c.perform ops action) actions) :
    TakenWithLine ops ip c (action :: actions) := by
  obtain ⟨before, beforeVector, after, split, accepts, enabled⟩ := taken
  exact ⟨action :: before, beforeVector, after, by rw [split, List.cons_append], accepts, enabled⟩

/-- One action keeps a pending line, unless it is a step that takes an interrupt
with the line enabled. -/
theorem perform_linePending {ip : Fin 8} {c : Core β} (pending : c.linePending ip)
    (ops : BusOps β) (action : Action β)
    (unmasked : ∀ beforeVector, action = .step beforeVector → c.NoMaskedLine) :
    (c.perform ops action).linePending ip ∨
      ∃ beforeVector, action = .step beforeVector ∧ c.Accepts ∧ c.lineEnabled ip := by
  cases action with
  | interrupt line => exact .inl (raise_linePending pending _)
  | pump pump => exact .inl (afterPump_linePending pending _)
  | debug pc isa =>
      left
      unfold perform setDebugPC
      dsimp only
      split
      · exact pending
      next moved =>
        split at moved
        · cases moved
        · rw [← Except.ok.inj moved]
          exact pending
  | step beforeVector =>
      by_cases accepts : c.Accepts
      · right
        have deliverable := c.accepts_iff_deliverable.mp accepts
        exact ⟨beforeVector, rfl, accepts, unmasked beforeVector rfl deliverable ip pending⟩
      · exact .inl (step_linePending pending accepts ops beforeVector)

theorem run_linePending {ip : Fin 8} {c : Core β} (pending : c.linePending ip) (ops : BusOps β)
    (actions : List (Action β)) (unmasked : c.RunsUnmasked ops actions) :
    (c.run ops actions).linePending ip ∨ TakenWithLine ops ip c actions := by
  induction actions generalizing c with
  | nil => exact .inl pending
  | cons action actions ih =>
      have first : ∀ beforeVector, action = .step beforeVector → c.NoMaskedLine :=
        fun beforeVector isStep => unmasked [] beforeVector actions (by rw [isStep]; rfl)
      rcases perform_linePending pending ops action first with kept | taken
      · have rest : (c.perform ops action).RunsUnmasked ops actions := by
          intro before beforeVector after split
          exact unmasked (action :: before) beforeVector after (by rw [split, List.cons_append])
        rcases ih kept rest with kept | taken
        · exact .inl kept
        · exact .inr taken.cons
      · obtain ⟨beforeVector, isStep, accepts, enabled⟩ := taken
        exact .inr ⟨[], beforeVector, actions, by rw [isStep]; rfl, accepts, enabled⟩

theorem run_append (ops : BusOps β) (c : Core β) (first second : List (Action β)) :
    c.run ops (first ++ second) = (c.run ops first).run ops second :=
  List.foldl_append

theorem RunsUnmasked.after {ops : BusOps β} {c : Core β} {before between after : List (Action β)}
    (unmasked : c.RunsUnmasked ops (before ++ between ++ after)) :
    (c.run ops before).RunsUnmasked ops between := by
  intro first beforeVector rest split
  rw [← run_append]
  apply unmasked (before ++ first) beforeVector (rest ++ after)
  rw [split]
  simp

/-- The rest of a step, behind its boundary. -/
def goOn (ops : BusOps β) (stage : Core β × Except String Unit) : Core β × Except String Unit :=
  match stage with
  | (c, .error error) => (c, .error error)
  | (c, .ok ()) =>
      match c.execute ops with
      | (c, .error error) => (c, .error error)
      | (c, .ok (effect, length)) => c.follow effect length

/-- The rest of a step from the vector on. -/
def goOnAtVector (ops : BusOps β) (beforeVector : Option (Pump β)) (vector : Core β) :
    Core β × Except String Unit :=
  goOn ops <|
    match beforeVector with
    | none => (vector, .ok ())
    | some pump => (vector.afterPump (pump vector), (pump vector).result)

theorem step_of_accepts {c : Core β} (accepts : c.Accepts) (ops : BusOps β)
    (beforeVector : Option (Pump β)) :
    c.stepWithInterruptBoundary ops beforeVector = c.atVector.goOnAtVector ops beforeVector := by
  change goOn ops (c.beginStep.acceptInterrupt beforeVector) = _
  rw [acceptInterrupt_of_accepts accepts]
  rfl

/-- The step of a core goes on at the vector, with a line in Cause. -/
structure Delivers (ops : BusOps β) (ip : Fin 8) (c : Core β) : Prop where
  accepts : c.Accepts
  goesOn : ∀ beforeVector,
    c.stepWithInterruptBoundary ops beforeVector = c.atVector.goOnAtVector ops beforeVector
  pc : c.atVector.pc = if c.cop0 12 &&& (1 : Word) <<< 22 != 0 then 0xbfc00380 else 0x80000180
  cause : (c.atVector.cop0 13).getLsbD (8 + ip) = true

/-- An enabled pending line is taken by the next step, which shows it in
Cause. -/
theorem delivers_of_unblocked {ip : Fin 8} {c : Core β} (unblocked : c.Unblocked)
    (pending : c.linePending ip) (enabled : c.lineEnabled ip) (ops : BusOps β) :
    c.Delivers ops ip := by
  have accepts : c.Accepts :=
    c.accepts_iff_deliverable.mpr ⟨unblocked, ip, enabled, .inl pending⟩
  have ready := accepts.2
  rw [serviceInterrupt_fst] at ready
  have requested : c.beginStep.requests.getLsbD (8 + ip) = true := by
    rw [requests_getLsbD, linePending, beginStep_pendingLines]
    unfold linePending at pending
    rw [pending, Bool.true_or]
  refine ⟨accepts, step_of_accepts accepts ops, ?_, ?_⟩
  · have status : c.beginStep.cop0 12 = c.cop0 12 := by
      rw [beginStep_eq_tickCount accepts.1, tickCount_cop0 _ (by decide)]
    unfold atVector
    rw [tickCount_pc]
    unfold serviceInterrupt
    rw [if_pos ready, ← status]
  · unfold atVector
    rw [tickCount_cop0 _ (by decide)]
    unfold serviceInterrupt
    rw [if_pos ready]
    dsimp only
    rw [setCop0_of_ne (by decide), setCop0_of_ne (by decide), setCop0_self, BitVec.getLsbD_or,
      requested, Bool.or_true]

/-- No interrupt is lost in a run whose steps never take an interrupt while a
masked line is pending. -/
theorem run_keeps_interrupts (ops : BusOps β) (c : Core β) (actions : List (Action β))
    (unmasked : c.RunsUnmasked ops actions) :
    (∀ ip before after, actions = before ++ .interrupt ip :: after →
      (c.run ops (before ++ [.interrupt ip])).linePending ip) ∧
    (∀ ip before between after, actions = before ++ between ++ after →
      (c.run ops before).linePending ip →
        (c.run ops (before ++ between)).linePending ip ∨
          TakenWithLine ops ip (c.run ops before) between) ∧
    (∀ before beforeVector after, actions = before ++ .step beforeVector :: after →
      (c.run ops before).Accepts →
        ∀ ip : Fin 8, (c.run ops before).linePending ip →
          (c.run ops before).lineEnabled ip = false →
            (c.run ops (before ++ [.step beforeVector])).linePending ip) ∧
    ∀ ip before after, actions = before ++ after →
      (c.run ops before).linePending ip → (c.run ops before).lineEnabled ip →
        (c.run ops before).Unblocked → (c.run ops before).Delivers ops ip := by
  refine ⟨?_, ?_, ?_, ?_⟩
  · intro ip before after split
    rw [run_append]
    exact interrupt_linePending ip _
  · intro ip before between after split pending
    rw [split] at unmasked
    rw [run_append]
    exact run_linePending pending ops between unmasked.after
  · intro before beforeVector after split accepts ip pending masked
    rw [run_append]
    rcases perform_linePending pending ops (.step beforeVector)
        (fun _ _ => unmasked before beforeVector after split) with kept | ⟨_, _, _, enabled⟩
    · exact kept
    · rw [masked] at enabled
      cases enabled
  · intro ip before after split pending enabled unblocked
    exact delivers_of_unblocked unblocked pending enabled ops

/-- A bus of zeros, which execute as no operation. -/
def silentBus : BusOps Unit where
  read _ _ _ := { value := 0, bus := () }
  write _ _ _ _ := ((), 0)

/-- IE and IM2 are set in Status, the other lines are masked. -/
def lineTwoCore : Core Unit :=
  (new () 0x80000000).setCop0 12 (1 ||| (1 : Word) <<< 10)

theorem lineTwo_run_keeps_interrupts :
    lineTwoCore.RunsUnmasked silentBus [.interrupt 2, .step none] ∧
      ((lineTwoCore.run silentBus [.interrupt 2, .step none]).linePending 2 ∨
        TakenWithLine silentBus 2 (lineTwoCore.run silentBus [.interrupt 2]) [.step none]) := by
  have unmasked : lineTwoCore.RunsUnmasked silentBus [.interrupt 2, .step none] := by
    intro before beforeVector after split
    match before with
    | [] => cases split
    | [first] =>
        rw [List.singleton_append, List.cons.injEq] at split
        rw [← split.1]
        intro _
        decide
    | _ :: _ :: _ :: _ => simp at split
    | [_, _] => simp at split
  exact ⟨unmasked,
    (run_keeps_interrupts silentBus lineTwoCore _ unmasked).2.1 2 [.interrupt 2] [.step none] []
      rfl (by decide)⟩

/-- Lines two and three are raised, Status enables line two only, and one step
loses line three. -/
theorem lineThree_masked_lost :
    ∃ (c : Core Unit) (actions : List (Action Unit)),
      c.linePending 3 = true ∧ (c.run silentBus actions).linePending 3 = false ∧
        ¬ TakenWithLine silentBus 3 c actions := by
  refine ⟨(lineTwoCore.interrupt 2).interrupt 3, [.step none], by decide, by decide, ?_⟩
  rintro ⟨before, beforeVector, after, split, -, enabled⟩
  cases before with
  | nil => exact absurd enabled (by decide)
  | cons first before => simp at split

end Core

end Cpu

end GoRetroTv
