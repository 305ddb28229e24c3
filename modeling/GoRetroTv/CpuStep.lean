import GoRetroTv.CpuMips16

/-!
# One step of the processor

`StepWithInterruptBoundary` of `internal/cpu/core.go`, and what a board does to
the core between steps: its pump raises lines, and the application handoff of
`internal/machine/handoff.go` moves an idle core to its entry point.
-/

namespace GoRetroTv

namespace Cpu

/-- What a pump of the board has done: its devices, the lines they raised, the
entry point if it handed the core over, and its own error. -/
structure Pumped (β : Type) where
  bus : β
  raised : Byte := 0
  entry : Option Word := none
  result : Except String Unit := .ok ()

abbrev Pump (β : Type) :=
  Core β → Pumped β

namespace Core

variable {β : Type}

/-- The handoff's move of the core, at a point with no pending delay slot. -/
def enter (entry : Word) (c : Core β) : Core β :=
  if c.hasPendingBranch then c
  else { c with gpr := Function.update c.gpr 31 0, pc := entry, isa := false }

def afterPump (pumped : Pumped β) (c : Core β) : Core β :=
  let served := { c with bus := pumped.bus }.raise pumped.raised
  match pumped.entry with
  | none => served
  | some entry => served.enter entry

/-- Count ticks once for a MIPS32 branch and its slot, and for every MIPS16
instruction. -/
def beginStep (c : Core β) : Core β :=
  if !c.delayed.armed || c.isa then c.tickCount else c

/-- The extra iteration of an accepted interrupt. -/
def acceptInterrupt (beforeVector : Option (Pump β)) (c : Core β) :
    Core β × Except String Unit :=
  if c.delayed.armed then (c, .ok ())
  else
    match c.serviceInterrupt with
    | (false, c) => (c, .ok ())
    | (true, c) =>
        let c := c.tickCount
        match beforeVector with
        | none => (c, .ok ())
        | some pump => (c.afterPump (pump c), (pump c).result)

/-- Fetch and execute the instruction at the current address. -/
def execute (ops : BusOps β) (c : Core β) : Executed16 β :=
  if c.isa then
    if c.pc &&& 1 != 0 then
      (c, .error s!"cpu: unaligned MIPS16 PC {Hexfmt.addr c.pc}")
    else
      match c.execute16 ops with
      | (c, .error error) => (c, .error s!"cpu: MIPS16 at {Hexfmt.addr c.pc}: {error}")
      | (c, .ok effect) => (c, .ok effect)
  else
    if c.pc &&& 3 != 0 then
      (c, .error s!"cpu: unaligned MIPS32 PC {Hexfmt.addr c.pc}")
    else
      let (word, c) := c.load ops c.pc .word
      match c.execute32 ops word with
      | (c, .error error) =>
          (c, .error s!"cpu: {Hexfmt.word word} at {Hexfmt.addr c.pc}: {error}")
      | (c, .ok effect) => (c, .ok (effect, 4))

/-- Register zero is cleared when an instruction has retired. -/
def clearZero (c : Core β) : Core β :=
  { c with gpr := Function.update c.gpr 0 0 }

/-- The flow of control after an executed instruction. -/
def follow (effect : Branch) (length : Word) (c : Core β) : Core β × Except String Unit :=
  if c.delayed.armed then
    if effect.armed || effect.immediate then
      (c, .error s!"cpu: branch in delay slot at {Hexfmt.addr c.pc}")
    else
      ({ c with pc := c.delayed.target, isa := c.delayed.isa, delayed := {} }.clearZero, .ok ())
  else if effect.armed then
    ({ c with delayed := { effect with «from» := c.pc }, pc := c.pc + length }.clearZero, .ok ())
  else if effect.immediate then
    ({ c with pc := effect.target, isa := effect.isa }.clearZero, .ok ())
  else
    let next := c.pc + length
    ({ c with pc := if effect.target = skipSlot then next + 4 else next }.clearZero, .ok ())

def stepWithInterruptBoundary (ops : BusOps β) (beforeVector : Option (Pump β)) (c : Core β) :
    Core β × Except String Unit :=
  match c.beginStep.acceptInterrupt beforeVector with
  | (c, .error error) => (c, .error error)
  | (c, .ok ()) =>
      match c.execute ops with
      | (c, .error error) => (c, .error error)
      | (c, .ok (effect, length)) => c.follow effect length

def step (ops : BusOps β) (c : Core β) : Core β × Except String Unit :=
  c.stepWithInterruptBoundary ops none

end Core

/-- What happens to a core between snapshots. -/
inductive Action (β : Type) where
  | interrupt (ip : Fin 8)
  | pump (pump : Pump β)
  | step (beforeVector : Option (Pump β))
  | debug (pc : Word) (isa : Bool)

namespace Core

variable {β : Type}

/-- The core after an action; one that fails leaves what it had done. -/
def perform (ops : BusOps β) (action : Action β) (c : Core β) : Core β :=
  match action with
  | .interrupt ip => c.interrupt ip
  | .pump pump => c.afterPump (pump c)
  | .step beforeVector => (c.stepWithInterruptBoundary ops beforeVector).1
  | .debug pc isa =>
      match c.setDebugPC pc isa with
      | .error _ => c
      | .ok c => c

def run (ops : BusOps β) (actions : List (Action β)) (c : Core β) : Core β :=
  actions.foldl (fun c action => c.perform ops action) c

end Core

namespace Core

variable {β : Type}

/-- Executing an instruction moves none of the flow of control, drops no
pending line and never writes register zero. -/
structure Frame (c c' : Core β) : Prop where
  pc : c'.pc = c.pc
  isa : c'.isa = c.isa
  delayed : c'.delayed = c.delayed
  zero : c'.gpr 0 = c.gpr 0
  lines : ∀ line, c.pendingLines.getLsbD line → c'.pendingLines.getLsbD line

namespace Frame

variable {c c' c'' : Core β}

theorem refl (c : Core β) : Frame c c :=
  ⟨rfl, rfl, rfl, rfl, fun _ pending => pending⟩

theorem trans (first : Frame c c') (second : Frame c' c'') : Frame c c'' where
  pc := second.pc.trans first.pc
  isa := second.isa.trans first.isa
  delayed := second.delayed.trans first.delayed
  zero := second.zero.trans first.zero
  lines line pending := second.lines line (first.lines line pending)

theorem set (frame : Frame c c') (register : Register) (value : Word) :
    Frame c (c'.set register value) := by
  unfold Core.set
  split
  · exact frame
  next notZero =>
    exact ⟨frame.pc, frame.isa, frame.delayed,
      (Function.update_of_ne (Ne.symm notZero) _ _).trans frame.zero, frame.lines⟩

theorem setCop0 (frame : Frame c c') (register : Register) (value : Word) :
    Frame c (c'.setCop0 register value) :=
  ⟨frame.pc, frame.isa, frame.delayed, frame.zero, frame.lines⟩

theorem setHiLo (frame : Frame c c') (hi lo : Word) : Frame c (c'.setHiLo hi lo) :=
  ⟨frame.pc, frame.isa, frame.delayed, frame.zero, frame.lines⟩

theorem dropReservation (frame : Frame c c') : Frame c c'.dropReservation :=
  ⟨frame.pc, frame.isa, frame.delayed, frame.zero, frame.lines⟩

theorem served (frame : Frame c c') (bus : β) (raised : Byte) :
    Frame c ({ c' with bus }.raise raised) where
  pc := frame.pc
  isa := frame.isa
  delayed := frame.delayed
  zero := frame.zero
  lines line pending := by
    have kept := frame.lines line pending
    simp [raise, BitVec.getLsbD_or, kept]

theorem load (frame : Frame c c') (ops : BusOps β) (address : Word) (size : Size) :
    Frame c (c'.load ops address size).2 :=
  frame.served _ _

theorem store (frame : Frame c c') (ops : BusOps β) (address : Word) (size : Size)
    (value : Word) : Frame c (c'.store ops address size value) :=
  frame.served _ _

end Frame

end Core

end Cpu

end GoRetroTv
