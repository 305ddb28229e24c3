import GoRetroTv.BoardPump
import GoRetroTv.CpuServedBus

/-!
# The machine and its steps

`Step` of `internal/board/runtime.go` over the machine of `internal/machine/snapshot.go`, and
what the host's loop does to the machine between steps.  A machine here has a schedule of some
kind; the one that runs has the clock.
-/

namespace GoRetroTv

open Cpu

/-- The owners of the state that moves together.  The core's bus is the board. -/
structure Machine (C : Type) where
  core : Core Board
  clock : C
  handoff : Handoff := {}
  skyGates : SkyGates
  retired : DoubleWord := 0
  unknownBus : Snapcodec.Failure := none
  unknownState : Snapcodec.Failure := none

namespace Machine

variable {C : Type}

/-- A stage of a step: the machine it leaves, also where it fails. -/
abbrev Staged (C : Type) :=
  Except String Unit × Machine C

/-- The next stage, unless one has failed. -/
def andThen (stage : Staged C) (next : Machine C → Staged C) : Staged C :=
  match stage with
  | (.error error, m) => (.error error, m)
  | (.ok (), m) => next m

/-- The board after something else was done with it, and the lines that were raised. -/
def withBoard (b : Board) (m : Machine C) : Machine C :=
  { m with core := { m.core with bus := b.absorb.1 }.raise b.absorb.2 }

/-- A boundary falls between instructions, and in the 16-bit set before a delay slot too. -/
def free (m : Machine C) : Bool :=
  !m.core.hasPendingBranch || m.core.isa

/-- What the pump works on, for a core. -/
def rig (core : Core Board) (m : Machine C) : Rig C where
  board := core.bus
  handoff := m.handoff
  clock := m.clock

section

-- How the schedule ticks.
variable (tick : Bool → DoubleWord → Rig C → Beat C)

/-- The tick of a boundary at a core. -/
def beatAt (m : Machine C) (core : Core Board) : Beat C :=
  tick core.hasPendingBranch m.retired (m.rig core)

/-- The boundary as the core calls it. -/
def boundary (m : Machine C) : Pump Board := fun core =>
  let left := m.beatAt tick core
  let (bus, raised) := left.rig.board.absorb
  { bus, raised, entry := left.entry, result := left.result }

/-- The machine behind a boundary at a core, but for the core. -/
def behind (core : Core Board) (m : Machine C) : Machine C :=
  let left := m.beatAt tick core
  { m with clock := left.rig.clock, handoff := left.rig.handoff }

/-- The boundary before an instruction. -/
def pumped (m : Machine C) : Staged C :=
  let left := m.boundary tick m.core
  (left.result, { m.behind tick m.core with core := m.core.afterPump left })

/-- The gates' tick. -/
def gated (persist : I2c.Persist) (m : Machine C) : Staged C :=
  let (result, skyGates, b) := m.skyGates.tick persist m.retired m.handoff.done m.core.bus
  (result.map fun _ => (), { m with skyGates }.withBoard b)

/-- The core's step, with the boundary of an interrupt that it accepts. -/
def executed (persist : I2c.Persist) (m : Machine C) : Staged C :=
  let (core, result) := m.core.stepWithInterruptBoundary (Board.ops persist) (m.boundary tick)
  let m :=
    match m.core.beginStep.atBoundary with
    | none => m
    | some reached => m.behind tick reached
  (result, { m with core })

/-- `Fault` of the DMA controller and of the serial bus master. -/
def faults (b : Board) : Except String Unit :=
  if b.dma.fault ≠ [] then .error s!"dma: {text b.dma.fault}"
  else if b.i2c.fault ≠ [] then .error s!"i2c: {text b.i2c.fault}"
  else .ok ()

/-- A step up to where the core takes it. -/
def begun (persist : I2c.Persist) (m : Machine C) : Staged C :=
  andThen (if m.free then m.pumped tick else (.ok (), m)) fun m =>
  if m.free then m.gated persist else (.ok (), m)

def stages (persist : I2c.Persist) (m : Machine C) : Staged C :=
  andThen (if m.free then m.pumped tick else (.ok (), m)) fun m =>
  andThen (if m.free then m.gated persist else (.ok (), m)) fun m =>
  andThen (m.executed tick persist) fun m =>
  (faults m.core.bus, { m with retired := m.retired + 1 })

theorem stages_begun {persist : I2c.Persist} {m : Machine C} :
    m.stages tick persist = andThen (m.begun tick persist) fun m =>
      andThen (m.executed tick persist) fun m =>
      (faults m.core.bus, { m with retired := m.retired + 1 }) := by
  unfold stages begun
  generalize (if m.free then m.pumped tick else (.ok (), m)) = stage
  obtain ⟨result, m⟩ := stage
  cases result <;> rfl

/-- `Step`. -/
def step (persist : I2c.Persist) (m : Machine C) : Staged C :=
  let (result, m') := m.stages tick persist
  (result.mapError fun error => s!"after {m.retired.toNat} instructions: {error}", m')

/-- What the host does to a machine. -/
inductive Input where
  | step
  | key (raw source : Byte)
  | push (pid : Half) (section_ : List Byte)
  | transport (data : List Byte)
  | schedule (data : List Byte) (first period : DoubleWord)
  | pump (now : DoubleWord)
  | take

/-- The demultiplexer's part in an input. -/
def fed (action : Demux.Receiver.Action PUnit) (m : Machine C) : Staged C :=
  match action m.core.bus.receiver with
  | .error error s => (.error error, m.withBoard (m.core.bus.received s))
  | .ok _ s => (.ok (), m.withBoard (m.core.bus.received s))

/-- A key for the front panel, which refuses it when its queue is full. -/
def keyed (raw source : Byte) (m : Machine C) : Staged C :=
  match m.core.bus.csi.key raw source with
  | .error error => (.error error, m)
  | .ok csi => (.ok (), m.withBoard (m.core.bus.put .csi csi))

/-- One turn of the host: its result, what it takes from the machine and the machine. -/
def perform (persist : I2c.Persist) (m : Machine C) :
    Input → Except String (List Byte) × Machine C
  | .step => ((m.step tick persist).1.map fun _ => [], (m.step tick persist).2)
  | .key raw source => ((m.keyed raw source).1.map fun _ => [], (m.keyed raw source).2)
  | .push pid section_ =>
      let left := m.fed (Demux.Receiver.push pid section_)
      (left.1.map fun _ => [], left.2)
  | .transport data =>
      let left := m.fed (Demux.Receiver.pushTransport data)
      (left.1.map fun _ => [], left.2)
  | .schedule data first period =>
      let left := m.fed (Demux.Receiver.scheduleTransport data first period)
      (left.1.map fun _ => [], left.2)
  | .pump now =>
      let left := m.fed (Demux.Receiver.pump now)
      (left.1.map fun _ => [], left.2)
  | .take =>
      let (taken, s) := Demux.Receiver.takeProgrammeTransport m.core.bus.receiver
      (.ok taken, m.withBoard (m.core.bus.received s))

/-- A turn of the host, with what its disk answers. -/
abbrev Turn :=
  I2c.Persist × Input

/-- A run of the host, which ends with its first failure. -/
def run (m : Machine C) : List Turn → List (Except String (List Byte)) × Machine C
  | [] => ([], m)
  | (persist, input) :: turns =>
      match m.perform tick persist input with
      | (.error error, m) => ([.error error], m)
      | (.ok taken, m) =>
          let (results, m) := m.run turns
          (.ok taken :: results, m)

variable {tick} in
/-- What every turn keeps, a run without a failure keeps. -/
theorem run_keeps {kept : Machine C → Prop} {turns : List Turn} {m : Machine C}
    (turn_keeps : ∀ turn ∈ turns, ∀ m taken, kept m →
      (m.perform tick turn.1 turn.2).1 = .ok taken → kept (m.perform tick turn.1 turn.2).2)
    (start : kept m) (ok : ∀ result ∈ (m.run tick turns).1, ∃ taken, result = .ok taken) :
    kept (m.run tick turns).2 := by
  induction turns generalizing m with
  | nil => exact start
  | cons turn turns ih =>
    obtain ⟨persist, input⟩ := turn
    have next (taken : List Byte) := turn_keeps _ List.mem_cons_self m taken start
    unfold run at ok ⊢
    generalize m.perform tick persist input = left at ok next ⊢
    obtain ⟨result, n⟩ := left
    cases result with
    | error error =>
      obtain ⟨taken, failed⟩ := ok _ List.mem_cons_self
      cases failed
    | ok taken =>
      exact ih (fun turn later => turn_keeps turn (List.mem_cons_of_mem _ later)) (next taken rfl)
        fun result later => ok result (List.mem_cons_of_mem _ later)

end

/-- The clock's tick.  It always ends: `Rig.tick_shows`. -/
def tick (slot : Bool) (retired : DoubleWord) (g : Rig (Clock Unit)) : Beat (Clock Unit) :=
  (g.tick slot retired).getD { result := .error "clock: the tick does not end", rig := g }

/-- `New`: a board at its reset vector with the pump on its clock. -/
def new (u202 u203 : List Byte) (skyGates : Bool) : Except String (Machine (Clock Unit)) := do
  let board ← Board.new u202 u203
  let (scheduled, clock) := Rig.again 1 Clock.new
  let _ ← scheduled
  return { core := Cpu.new board 0xbfc00000, clock, skyGates := { enabled := skyGates } }

end Machine

end GoRetroTv
