import GoRetroTv.CpuEvenFlow

/-!
# Load linked and store conditional

What each instruction does to the load-link reservation.  Every store of the
32-bit set and every accepted interrupt drops it; a store of the 16-bit set and
ERET leave it, so an SC after one of those may still write.
-/

namespace GoRetroTv

namespace Cpu

/-- What happens to a reservation in a run. -/
inductive LinkEvent where
  | loadLinked (ea : Word)
  | store32 (ea : Word) (size : Size)
  | store16 (ea : Word) (size : Size)
  | storeConditional (ea : Word)
  | interrupt
  | eret
  deriving DecidableEq

namespace LinkEvent

/-- The reserved address after an event. -/
def after (event : LinkEvent) (reservation : Option Word) : Option Word :=
  match event with
  | .loadLinked ea => some ea
  | .store32 _ _ => none
  | .storeConditional _ => none
  | .interrupt => none
  | .store16 _ _ => reservation
  | .eret => reservation

/-- The reservation after a list of events. -/
def afterAll (events : List LinkEvent) (reservation : Option Word) : Option Word :=
  events.foldl (fun reservation event => event.after reservation) reservation

section

-- Whether a store reaches the word reserved at an address, through whatever
-- aliases and widths the board has.
variable (touches : Word → Size → Word → Prop)

/-- The event takes nothing from the section that began with an LL at `ea`: it
is no LL or SC, no interrupt or ERET, and no store to the reserved word. -/
inductive Harmless (ea : Word) : LinkEvent → Prop where
  | store32 {address : Word} {size : Size} (apart : ¬ touches address size ea) :
      Harmless ea (.store32 address size)
  | store16 {address : Word} {size : Size} (apart : ¬ touches address size ea) :
      Harmless ea (.store16 address size)

/-- While an address is reserved the event is neither ERET nor a store of the
16-bit set to its word. -/
def Guarded (reservation : Option Word) (event : LinkEvent) : Prop :=
  ∀ ea ∈ reservation, event ≠ .eret ∧
    ∀ address size, event = .store16 address size → ¬ touches address size ea

/-- Every event of a list is guarded where it happens. -/
def AllGuarded : Option Word → List LinkEvent → Prop
  | _, [] => True
  | reservation, event :: events =>
      Guarded touches reservation event ∧ AllGuarded (event.after reservation) events

/-- The last LL was to this address, and nothing has taken from it since. -/
def Unbroken (trace : List LinkEvent) (ea : Word) : Prop :=
  ∃ before since, trace = before ++ .loadLinked ea :: since ∧
    ∀ event ∈ since, Harmless touches ea event

/-- A reserved address is that of an unbroken section. -/
def Since (trace : List LinkEvent) (reservation : Option Word) : Prop :=
  ∀ ea ∈ reservation, Unbroken touches trace ea

end

variable {touches : Word → Size → Word → Prop}

/-- The last event of an unbroken trace. -/
theorem Unbroken.last {trace : List LinkEvent} {event : LinkEvent} {ea : Word}
    (unbroken : Unbroken touches (trace ++ [event]) ea) :
    event = .loadLinked ea ∨ Harmless touches ea event := by
  obtain ⟨before, since, split, quiet⟩ := unbroken
  rcases since.eq_nil_or_concat with rfl | ⟨since, other, rfl⟩
  · obtain ⟨_, same⟩ := List.append_inj' split rfl
    exact .inl (by simpa using same)
  · rw [List.concat_eq_append, ← List.cons_append, ← List.append_assoc] at split
    obtain ⟨_, same⟩ := List.append_inj' split rfl
    obtain rfl : event = other := by simpa using same
    exact .inr (quiet event (by simp))

theorem Since.append {trace : List LinkEvent} {reservation : Option Word} {event : LinkEvent}
    (since : Since touches trace reservation) (guarded : Guarded touches reservation event) :
    Since touches (trace ++ [event]) (event.after reservation) := by
  intro ea reserved
  -- An event that keeps the reservation extends the section.
  have extend (harmless : ea ∈ reservation → Harmless touches ea event)
      (kept : ea ∈ reservation) : Unbroken touches (trace ++ [event]) ea := by
    obtain ⟨before, rest, split, quiet⟩ := since ea kept
    refine ⟨before, rest ++ [event], by simp [split], ?_⟩
    intro other member
    rcases List.mem_append.mp member with old | new
    · exact quiet other old
    · rw [List.mem_singleton.mp new]
      exact harmless kept
  cases event with
  | loadLinked linked =>
      obtain rfl : linked = ea := by simpa [after] using reserved
      exact ⟨trace, [], by simp, by simp⟩
  | store32 address size => simp [after] at reserved
  | storeConditional address => simp [after] at reserved
  | interrupt => simp [after] at reserved
  | store16 address size =>
      exact extend (fun kept => .store16 ((guarded ea kept).2 address size rfl)) reserved
  | eret => exact absurd rfl (guarded ea reserved).1

theorem Since.append_all {trace : List LinkEvent} {reservation : Option Word}
    {events : List LinkEvent} (since : Since touches trace reservation)
    (guarded : AllGuarded touches reservation events) :
    Since touches (trace ++ events) (afterAll events reservation) := by
  induction events generalizing trace reservation with
  | nil => rwa [List.append_nil]
  | cons event events ih =>
      have rest := ih (since.append guarded.1) guarded.2
      rwa [List.append_assoc, List.singleton_append] at rest

end LinkEvent

namespace Core

variable {β : Type}

open Mips32 LinkEvent

/-- The reserved address. -/
def reservation (c : Core β) : Option Word :=
  if c.hasReservation then some c.reserved else none

/-- What a 32-bit instruction does to the reservation. -/
def linkEvent32 (w : Word) (c : Core β) : Option LinkEvent :=
  let ea := c.gpr (rs w) + simm w
  match op w with
  | 16 => if w = 0x42000018 then some .eret else none
  | 40 => some (.store32 ea .byte)
  | 41 => some (.store32 ea .half)
  | 43 => some (.store32 ea .word)
  | 42 | 46 => some (.store32 (ea &&& ~~~3) .word)
  | 48 => some (.loadLinked ea)
  | 56 => some (.storeConditional ea)
  | _ => none

/-- The stores of the 16-bit set. -/
def linkEvent16 (f : Fetched16) (c : Core β) : Option LinkEvent :=
  match f.op with
  | 12 =>
      if f.rx = 2 ∧ f.constfield = true then
        some (.store16 (c.gpr 29 + f.immediate (f.imm8 <<< 2)) .word)
      else none
  | 0x18 => some (.store16 (c.gpr f.x + f.memoff 0) .byte)
  | 0x19 => some (.store16 (c.gpr f.x + f.memoff 1) .half)
  | 0x1b => some (.store16 (c.gpr f.x + f.memoff 2) .word)
  | 0x1a =>
      if f.constfield then some (.store16 (c.gpr 29 + f.immediate (f.imm8 <<< 2)) .word) else none
  | _ => none

/-- The event of the instruction at the current address. -/
def linkEvent (ops : BusOps β) (c : Core β) : Option LinkEvent :=
  if c.isa then
    if c.pc &&& 1 != 0 then none else (c.fetch16 ops).2.linkEvent16 (c.fetch16 ops).1
  else if c.pc &&& 3 != 0 then none
  else (c.load ops c.pc .word).2.linkEvent32 (c.load ops c.pc .word).1

/-- The interrupt a step takes before its instruction. -/
def interruptEvents (c : Core β) : List LinkEvent :=
  if c.Accepts then [.interrupt] else []

/-- The events of a step: its interrupt and the instruction it executes. -/
def stepEvents (ops : BusOps β) (beforeVector : Option (Pump β)) (c : Core β) :
    List LinkEvent :=
  c.interruptEvents ++
    match c.beginStep.acceptInterrupt beforeVector with
    | (_, .error _) => []
    | (begun, .ok _) => (begun.linkEvent ops).toList

def actionEvents (ops : BusOps β) (action : Action β) (c : Core β) : List LinkEvent :=
  match action with
  | .step beforeVector => c.stepEvents ops beforeVector
  | _ => []

/-- The events of a run. -/
def events (ops : BusOps β) : List (Action β) → Core β → List LinkEvent
  | [], _ => []
  | action :: actions, c =>
      c.actionEvents ops action ++ events ops actions (c.perform ops action)

section Fields

variable (c : Core β)

@[simp]
theorem set_reservation (register : Register) (value : Word) :
    (c.set register value).reservation = c.reservation := by
  unfold Core.set
  split <;> rfl

@[simp]
theorem setCop0_reservation (register : Register) (value : Word) :
    (c.setCop0 register value).reservation = c.reservation :=
  rfl

@[simp]
theorem setHiLo_reservation (hi lo : Word) : (c.setHiLo hi lo).reservation = c.reservation :=
  rfl

@[simp]
theorem dropReservation_reservation : c.dropReservation.reservation = none :=
  rfl

@[simp]
theorem load_reservation (ops : BusOps β) (address : Word) (size : Size) :
    (c.load ops address size).2.reservation = c.reservation :=
  rfl

@[simp]
theorem store_reservation (ops : BusOps β) (address : Word) (size : Size) (value : Word) :
    (c.store ops address size value).reservation = c.reservation :=
  rfl

@[simp]
theorem retire_reservation : c.retire.1.reservation = c.reservation :=
  rfl

@[simp]
theorem transfer_reservation (effect : Branch) :
    (c.transfer effect).1.reservation = c.reservation :=
  rfl

@[simp]
theorem refuse_reservation (error : String) : (c.refuse error).1.reservation = c.reservation :=
  rfl

@[simp]
theorem branchTo_reservation (w : Word) (ok : Bool) :
    (c.branchTo w ok).1.reservation = c.reservation := by
  unfold branchTo
  split <;> rfl

@[simp]
theorem branchLikelyTo_reservation (w : Word) (ok : Bool) :
    (c.branchLikelyTo w ok).1.reservation = c.reservation := by
  unfold branchLikelyTo
  split <;> simp

end Fields

section Executing

variable {c : Core β} {w : Word}

@[simp]
theorem special_reservation : (c.special w).1.reservation = c.reservation := by
  unfold special
  dsimp only
  split
  all_goals first
    | simp; done
    | (split <;> simp)

@[simp]
theorem regimm_reservation : (c.regimm w).1.reservation = c.reservation := by
  unfold regimm
  dsimp only
  split <;> simp

@[simp]
theorem coprocessor0_reservation : (c.coprocessor0 w).1.reservation = c.reservation := by
  unfold coprocessor0
  dsimp only
  split
  · simp
  · split <;> rfl
  · split
    · rfl
    · split <;> rfl
  · rfl

theorem execute32_reservation (ops : BusOps β) :
    (c.execute32 ops w).1.reservation = afterAll (c.linkEvent32 w).toList c.reservation := by
  unfold execute32 linkEvent32 memory unaligned
  dsimp only
  generalize op w = opcode
  split
  all_goals try simp [afterAll, after]; done
  case h_22 =>
    rw [coprocessor0_reservation]
    show c.reservation = afterAll (Option.toList (ite _ _ _)) c.reservation
    split <;> rfl
  case h_31 => rfl
  case h_32 =>
    show reservation (Prod.fst (ite _ _ _)) = none
    split <;> rfl

variable {f : Fetched16}

@[simp]
theorem retire16_reservation : (c.retire16 f).1.reservation = c.reservation :=
  rfl

@[simp]
theorem transfer16_reservation (effect : Branch) :
    (c.transfer16 f effect).1.reservation = c.reservation :=
  rfl

@[simp]
theorem refuse16_reservation (reason : String) :
    (c.refuse16 f reason).1.reservation = c.reservation :=
  rfl

@[simp]
theorem instantIf_reservation (ok : Bool) (offset : Word) :
    (c.instantIf f ok offset).1.reservation = c.reservation := by
  unfold instantIf
  split <;> rfl

@[simp]
theorem jal16_reservation (ops : BusOps β) : (c.jal16 ops f).1.reservation = c.reservation := by
  unfold jal16
  split
  · rfl
  · simp

@[simp]
theorem shift16_reservation : (c.shift16 f).1.reservation = c.reservation := by
  unfold shift16
  dsimp only
  split
  · rfl
  · split
    · rfl
    · split <;> simp

@[simp]
theorem i8_reservation (ops : BusOps β) : (c.i8 ops f).1.reservation = c.reservation := by
  unfold i8
  dsimp only
  split
  all_goals first
    | rfl
    | (split <;> simp)

@[simp]
theorem memory16_reservation (ops : BusOps β) :
    (c.memory16 ops f).1.reservation = c.reservation := by
  unfold memory16
  dsimp only
  split <;> simp

@[simp]
theorem wordAccess16_reservation (ops : BusOps β) :
    (c.wordAccess16 ops f).1.reservation = c.reservation := by
  unfold wordAccess16
  dsimp only
  split
  · split <;> simp
  · rfl

@[simp]
theorem jr16_reservation : (c.jr16 f).1.reservation = c.reservation := by
  unfold jr16
  dsimp only
  -- The link register is written before the jump.
  have linked : (if f.ry = 2 then c.set 31 (f.pc + 4 ||| 1)
      else if f.ry = 6 then c.set 31 (f.pc + 2 ||| 1) else c).reservation = c.reservation := by
    split
    · simp
    · split <;> simp
  split
  · rfl
  · split
    · exact linked
    · split <;> exact linked

@[simp]
theorem convert16_reservation : (c.convert16 f).1.reservation = c.reservation := by
  unfold convert16
  dsimp only
  split <;> simp

@[simp]
theorem rr_reservation : (c.rr f).1.reservation = c.reservation := by
  unfold rr
  dsimp only
  split
  · rfl
  · split
    all_goals first
      | simp; done
      | (split <;> simp)

/-- No instruction of the 16-bit set touches the reservation. -/
theorem dispatch16_reservation (ops : BusOps β) :
    (c.dispatch16 ops f).1.reservation = c.reservation := by
  unfold dispatch16
  dsimp only
  split
  all_goals first
    | simp; done
    | (split <;> simp; done)
    | (split
       · rfl
       · split <;> simp)

@[simp]
theorem fetch16_reservation (ops : BusOps β) :
    (c.fetch16 ops).2.reservation = c.reservation := by
  unfold fetch16
  dsimp only
  split <;> rfl

/-- The events of the 16-bit set are stores, which leave the reservation. -/
theorem afterAll_linkEvent16 (reservation : Option Word) :
    afterAll (c.linkEvent16 f).toList reservation = reservation := by
  unfold linkEvent16
  split
  all_goals first
    | rfl
    | (split <;> rfl)

theorem execute_reservation (ops : BusOps β) :
    (c.execute ops).1.reservation = afterAll (c.linkEvent ops).toList c.reservation := by
  unfold execute linkEvent
  split
  · split
    · rfl
    · rw [afterAll_linkEvent16]
      have kept : (c.execute16 ops).1.reservation = c.reservation := by
        unfold execute16
        rw [dispatch16_reservation, fetch16_reservation]
      split <;> simp_all
  · split
    · rfl
    · have executed := execute32_reservation (c := (c.load ops c.pc .word).2)
        (w := (c.load ops c.pc .word).1) ops
      rw [load_reservation] at executed
      dsimp only
      split <;> simp_all

end Executing

section Running

variable {c : Core β}

@[simp]
theorem tickCount_reservation : c.tickCount.reservation = c.reservation := by
  unfold tickCount
  dsimp only
  split <;> rfl

@[simp]
theorem beginStep_reservation : c.beginStep.reservation = c.reservation := by
  unfold beginStep
  split
  · exact tickCount_reservation
  · rfl

@[simp]
theorem afterPump_reservation (pumped : Pumped β) :
    (c.afterPump pumped).reservation = c.reservation := by
  unfold afterPump enter
  dsimp only
  split
  · rfl
  · split <;> rfl

@[simp]
theorem follow_reservation (effect : Branch) (length : Word) :
    (c.follow effect length).1.reservation = c.reservation := by
  unfold follow
  split
  · split <;> rfl
  · split
    · rfl
    · split <;> rfl

theorem atVector_reservation (accepts : c.Accepts) : c.atVector.reservation = none := by
  have ready := accepts.2
  rw [serviceInterrupt_fst] at ready
  unfold atVector serviceInterrupt
  rw [tickCount_reservation, if_pos ready]
  rfl

/-- An accepted interrupt drops the reservation. -/
theorem acceptInterrupt_reservation (beforeVector : Option (Pump β)) :
    (c.beginStep.acceptInterrupt beforeVector).1.reservation =
      afterAll c.interruptEvents c.reservation := by
  unfold interruptEvents
  by_cases accepts : c.Accepts
  · rw [acceptInterrupt_of_accepts accepts, if_pos accepts]
    cases beforeVector with
    | none => exact atVector_reservation accepts
    | some pump => exact (afterPump_reservation _).trans (atVector_reservation accepts)
  · rw [acceptInterrupt_of_not_accepts accepts, if_neg accepts]
    exact beginStep_reservation

theorem afterAll_append (first second : List LinkEvent) (reservation : Option Word) :
    afterAll (first ++ second) reservation = afterAll second (afterAll first reservation) :=
  List.foldl_append

theorem step_reservation (ops : BusOps β) (beforeVector : Option (Pump β)) :
    (c.stepWithInterruptBoundary ops beforeVector).1.reservation =
      afterAll (c.stepEvents ops beforeVector) c.reservation := by
  have begun := acceptInterrupt_reservation (c := c) beforeVector
  unfold stepWithInterruptBoundary stepEvents
  rw [afterAll_append, ← begun]
  split
  next accepted => rw [accepted]; rfl
  next accepted =>
    rw [accepted, ← execute_reservation]
    split
    next executed => rw [executed]
    next executed => rw [executed, follow_reservation]

theorem perform_reservation (ops : BusOps β) (action : Action β) :
    (c.perform ops action).reservation = afterAll (c.actionEvents ops action) c.reservation := by
  cases action with
  | interrupt ip => rfl
  | pump pump => exact afterPump_reservation _
  | step beforeVector => exact step_reservation ops beforeVector
  | debug pc isa =>
      unfold perform setDebugPC
      dsimp only
      split
      · rfl
      next moved =>
        split at moved
        · cases moved
        · rw [← Except.ok.inj moved]
          rfl

end Running

section

-- Whether a store reaches the word reserved at an address.
variable (touches : Word → Size → Word → Prop)

/-- In every step of a run, while a word is reserved, the instruction is neither
ERET nor a store of the 16-bit set to that word. -/
def RunGuarded (ops : BusOps β) : Core β → List (Action β) → Prop
  | _, [] => True
  | c, action :: actions =>
      AllGuarded touches c.reservation (c.actionEvents ops action) ∧
        RunGuarded ops (c.perform ops action) actions

/-- An SC writes and returns one only at the end of an unbroken section to its
address, and otherwise leaves the board alone and returns zero. -/
def Promised (ops : BusOps β) (trace : List LinkEvent) (w : Word) (c : Core β) : Prop :=
  let ea := c.gpr (rs w) + simm w
  let executed := (c.execute32 ops w).1
  (Unbroken touches trace ea ∧
      executed.bus = (ops.write ea .word (c.gpr (rt w)) c.bus).1 ∧
        (rt w ≠ 0 → executed.gpr (rt w) = 1)) ∨
    executed.bus = c.bus ∧ (rt w ≠ 0 → executed.gpr (rt w) = 0)

/-- Every SC that a run executes, at whatever step, keeps the promise. -/
def StoreConditionalsAtomic (ops : BusOps β) (c : Core β) (actions : List (Action β)) : Prop :=
  ∀ before beforeVector after, actions = before ++ .step beforeVector :: after →
    ∀ begun, (c.run ops before).beginStep.acceptInterrupt beforeVector = (begun, .ok ()) →
      begun.isa = false → begun.pc &&& 3 = 0 → op (begun.load ops begun.pc .word).1 = 56 →
        Promised touches ops (c.events ops before ++ (c.run ops before).interruptEvents)
          (begun.load ops begun.pc .word).1 (begun.load ops begun.pc .word).2

end

section Atomic

variable {touches : Word → Size → Word → Prop} {ops : BusOps β} {c : Core β}

/-- What an SC does follows the reservation. -/
theorem promised_of_since {trace : List LinkEvent} (since : Since touches trace c.reservation)
    {w : Word} (isStoreConditional : op w = 56) : Promised touches ops trace w c := by
  have executed : c.execute32 ops w = c.memory ops w := by
    simp only [execute32, isStoreConditional]
  unfold Promised
  rw [executed]
  simp only [memory, isStoreConditional]
  split
  next reserved =>
    obtain ⟨held, address⟩ : c.hasReservation = true ∧ c.reserved = c.gpr (rs w) + simm w := by
      simpa using reserved
    refine .inl ⟨since _ ?_, set_bus _ _ _, fun notZero => set_gpr_self notZero _ _⟩
    simp [reservation, held, address]
  next => exact .inr ⟨set_bus _ _ _, fun notZero => set_gpr_self notZero _ _⟩

theorem RunGuarded.since {actions : List (Action β)} (guarded : RunGuarded touches ops c actions)
    {trace : List LinkEvent} (since : Since touches trace c.reservation) :
    Since touches (trace ++ c.events ops actions) (c.run ops actions).reservation := by
  induction actions generalizing c trace with
  | nil => simpa [events, run] using since
  | cons action actions ih =>
      have performed := since.append_all guarded.1
      rw [← perform_reservation] at performed
      have rest := ih guarded.2 performed
      rwa [List.append_assoc] at rest

theorem RunGuarded.before {first second : List (Action β)}
    (guarded : RunGuarded touches ops c (first ++ second)) : RunGuarded touches ops c first := by
  induction first generalizing c with
  | nil => trivial
  | cons action first ih => exact ⟨guarded.1, ih guarded.2⟩

theorem allGuarded_interruptEvents (reservation : Option Word) :
    AllGuarded touches reservation c.interruptEvents := by
  unfold interruptEvents
  split
  · exact ⟨fun ea _ => ⟨by simp, by simp⟩, trivial⟩
  · trivial

/-- From reset, an SC is atomic in every run that, while a word is reserved,
neither executes ERET nor stores to that word in the 16-bit set. -/
theorem run_store_conditionals_atomic (ops : BusOps β) (bus : β) (pc : Word)
    (actions : List (Action β)) (guarded : RunGuarded touches ops (Cpu.new bus pc) actions) :
    StoreConditionalsAtomic touches ops (Cpu.new bus pc) actions := by
  intro before beforeVector after split begun accepted _ _ isStoreConditional
  subst split
  apply promised_of_since _ isStoreConditional
  have started : Since touches [] (Cpu.new bus pc).reservation := by
    intro ea reserved
    cases reserved
  have ran := guarded.before.since started
  have vectored := ran.append_all (allGuarded_interruptEvents (c := (Cpu.new bus pc).run ops before) _)
  have handed := acceptInterrupt_reservation (c := (Cpu.new bus pc).run ops before) beforeVector
  rw [accepted] at handed
  rw [load_reservation, handed]
  simpa using vectored

end Atomic

/-- A store to the word of an address. -/
def sameWord (address : Word) (_ : Size) (ea : Word) : Prop :=
  address &&& ~~~3 = ea &&& ~~~3

instance (address : Word) (size : Size) (ea : Word) : Decidable (sameWord address size ea) :=
  inferInstanceAs (Decidable (_ = _))

/-- A board of one memory cell and a program of words and halfwords. -/
def cellBoard (program : Word → Word) : BusOps Word where
  read address _ cell := { bus := cell, value := if address = 0 then cell else program address }
  write _ _ value _ := (value, 0)

/-- An LL and an SC of the cell. -/
def linkedProgram (address : Word) : Word :=
  if address = 0xbfc00000 then 0xc0040000
  else if address = 0xbfc00004 then 0xe0050000
  else 0

/-- A core that has reserved the cell. -/
def linked : Core Word :=
  { Cpu.new 7 0xbfc00004 with
    gpr := Function.update (Function.update (fun _ => 0) 4 7) 0 0
    cop0 := Function.update (fun _ => 0) 9 1
    hasReservation := true }

/-- An LL followed by an SC meets the condition. -/
theorem linked_run_atomic :
    StoreConditionalsAtomic sameWord (cellBoard linkedProgram) (Cpu.new 7 0xbfc00000)
      [.step none, .step none] := by
  have first : (Cpu.new 7 0xbfc00000).perform (cellBoard linkedProgram) (.step none) = linked := rfl
  have loads : (Cpu.new 7 0xbfc00000).actionEvents (cellBoard linkedProgram) (.step none) =
      [.loadLinked 0] := rfl
  have stores : linked.actionEvents (cellBoard linkedProgram) (.step none) =
      [.storeConditional 0] := rfl
  apply run_store_conditionals_atomic
  refine ⟨?_, ?_, trivial⟩
  · rw [loads]
    exact ⟨fun ea reserved => (by cases reserved), trivial⟩
  · rw [first, stores]
    exact ⟨fun ea _ => ⟨by simp, by simp⟩, trivial⟩

/-- An LL, a jump to the 16-bit set, a store to the cell there, the return, and
the SC. -/
def storingProgram (address : Word) : Word :=
  if address = 0xbfc00000 then 0xc0040000
  else if address = 0xbfc00004 then 0x77f00004
  else if address = 0xbfc0000c then 0xe0050000
  else if address = 0xbfc00010 then 0xda60
  else if address = 0xbfc00012 then 0xe8a0
  else 0

/-- The steps of the program before its SC. -/
def untilStored : List (Action Word) :=
  [.step none, .step none, .step none, .step none, .step none]

/-- In the delay slot of the jump. -/
def jumping : Core Word :=
  { linked with
    pc := 0xbfc00008
    gpr := Function.update (Function.update linked.gpr 31 0xbfc0000c) 0 0
    cop0 := Function.update linked.cop0 9 2
    delayed := { target := 0xbfc00010, «from» := 0xbfc00004, isa := true, armed := true } }

/-- At the store of the 16-bit set. -/
def storing : Core Word :=
  { jumping with
    pc := 0xbfc00010
    isa := true
    delayed := {}
    gpr := Function.update jumping.gpr 0 0 }

/-- At the return. -/
def returning : Core Word :=
  { storing with
    pc := 0xbfc00012
    bus := 0
    gpr := Function.update storing.gpr 0 0
    cop0 := Function.update storing.cop0 9 3 }

/-- At the SC, with the reservation still held. -/
def stored : Core Word :=
  { returning with
    pc := 0xbfc0000c
    isa := false
    gpr := Function.update returning.gpr 0 0
    cop0 := Function.update returning.cop0 9 4 }

theorem perform_start :
    (Cpu.new 7 0xbfc00000).perform (cellBoard storingProgram) (.step none) = linked := rfl

theorem perform_linked : linked.perform (cellBoard storingProgram) (.step none) = jumping := rfl

theorem perform_jumping : jumping.perform (cellBoard storingProgram) (.step none) = storing := rfl

theorem perform_storing :
    storing.perform (cellBoard storingProgram) (.step none) = returning := rfl

theorem perform_returning :
    returning.perform (cellBoard storingProgram) (.step none) = stored := rfl

theorem run_stored :
    (Cpu.new 7 0xbfc00000).run (cellBoard storingProgram) untilStored = stored := by
  simp only [untilStored, run, List.foldl_cons, List.foldl_nil, perform_start, perform_linked,
    perform_jumping, perform_storing, perform_returning]

theorem events_stored :
    (Cpu.new 7 0xbfc00000).events (cellBoard storingProgram) untilStored =
      [.loadLinked 0] ++ [.store16 0 .word] := by
  simp only [untilStored, events, perform_start, perform_linked, perform_jumping,
    perform_storing]
  rfl

/-- The store of the 16-bit set keeps the reservation, so the SC after it still
writes and returns one. -/
theorem store16_keeps_reservation :
    ¬ StoreConditionalsAtomic sameWord (cellBoard storingProgram) (Cpu.new 7 0xbfc00000)
      (untilStored ++ [.step none]) := by
  intro atomic
  have accepted : ((Cpu.new 7 0xbfc00000).run (cellBoard storingProgram)
      untilStored).beginStep.acceptInterrupt none = (stored.beginStep, .ok ()) := by
    rw [run_stored]
    rfl
  rcases atomic untilStored none [] rfl stored.beginStep accepted rfl rfl rfl with
    ⟨unbroken, _⟩ | ⟨_, zero⟩
  · have traced : (Cpu.new 7 0xbfc00000).events (cellBoard storingProgram) untilStored ++
        ((Cpu.new 7 0xbfc00000).run (cellBoard storingProgram) untilStored).interruptEvents =
          [.loadLinked 0] ++ [.store16 0 .word] := by
      rw [run_stored, events_stored]
      rfl
    rw [traced] at unbroken
    rcases unbroken.last with linked | harmless
    · cases linked
    · cases harmless with
      | store16 apart => exact apart rfl
  · have one := zero (by decide)
    revert one
    decide

end Core

end Cpu

end GoRetroTv
