import GoRetroTv.AddressedCells
import GoRetroTv.CpuFlow
import GoRetroTv.SnapshotCodecLaws

/-!
# The processor's snapshot

`internal/cpu/snapshot.go`.  `Restore` checks what running code is meant to
maintain: register zero, and addresses the instruction sets can execute at.
`WellFormed` is that condition, and a core that meets it is read back whole.
-/

namespace GoRetroTv

namespace Cpu

open Snapcodec

namespace Core

variable {β : Type}

def snapshotVersion : Half :=
  1

/-- `Snapshot`. -/
def snapshot (c : Core β) : Except String (List Byte) :=
  newWriter (ascii "cpu") snapshotVersion
    |>.words (cells c.gpr)
    |>.uint32 c.pc
    |>.uint32 c.hi
    |>.uint32 c.lo
    |>.bool c.isa
    |>.words (cells c.cop0)
    |>.uint32 c.delayed.target
    |>.uint32 c.delayed.from
    |>.bool c.delayed.isa
    |>.bool c.delayed.armed
    |>.bool c.delayed.immediate
    |>.uint32 c.reserved
    |>.bool c.hasReservation
    |>.bool c.timerPending
    |>.uint8 c.pendingLines
    |>.blob

/-- The checks of `Restore` on what it has read. -/
def compatible (gpr cop0 : List Word) (pc : Word) (isa : Bool) (delayed : Branch) : Bool :=
  !(gpr.length ≠ 32 || cop0.length ≠ 32 || gpr.headD 0 ≠ 0 || pc &&& 1 != 0 ||
    (!isa && pc &&& 3 != 0) ||
    (delayed.armed && (delayed.immediate || delayed.target &&& 1 != 0 ||
      (!delayed.isa && delayed.target &&& 3 != 0))) ||
    (delayed.armed && (delayed.from &&& 1 != 0 || (!isa && delayed.from &&& 3 != 0))) ||
    (!delayed.armed && (delayed.immediate || delayed.target != 0 || delayed.from != 0)))

/-- What `Restore` reads; the bus is the restoring core's own. -/
def readSnapshot (bus : β) : Reading (Core β) := do
  let gpr ← Reading.words
  let pc ← Reading.uint32
  let hi ← Reading.uint32
  let lo ← Reading.uint32
  let isa ← Reading.bool
  let cop0 ← Reading.words
  let target ← Reading.uint32
  let «from» ← Reading.uint32
  let delayedIsa ← Reading.bool
  let armed ← Reading.bool
  let immediate ← Reading.bool
  let reserved ← Reading.uint32
  let hasReservation ← Reading.bool
  let timerPending ← Reading.bool
  let pendingLines ← Reading.uint8
  Reading.wrap "cpu: restore: " Reading.done
  let delayed : Branch := { target, «from», isa := delayedIsa, armed, immediate }
  Reading.require (compatible gpr cop0 pc isa delayed)
    "cpu: restore: incompatible register state"
  return {
    gpr := ofCells 0 gpr
    pc, hi, lo, isa
    cop0 := ofCells 0 cop0
    delayed, reserved, hasReservation, timerPending, pendingLines, bus }

/-- `Restore`. -/
def restore (blob : List Byte) (c : Core β) : Except String (Core β) :=
  restoring blob (ascii "cpu") snapshotVersion snapshotVersion "cpu: restore: "
    (readSnapshot c.bus)

/-- The state between steps: register zero is zero, addresses are aligned for
the instruction set that will execute there, and a delay slot that is not due
has left nothing behind. -/
structure WellFormed (c : Core β) : Prop where
  zero : c.gpr 0 = 0
  pc : Aligned c.pc c.isa
  slot : c.delayed.armed = true →
    c.delayed.immediate = false ∧ Aligned c.delayed.target c.delayed.isa ∧
      Aligned c.delayed.from c.isa
  noSlot : c.delayed.armed = false → c.delayed = {}

theorem compatible_of_wellFormed {c : Core β} (wellFormed : c.WellFormed) :
    compatible (cells c.gpr) (cells c.cop0) c.pc c.isa c.delayed = true := by
  have zero : (cells c.gpr).headD 0 = 0 :=
    (cells_head c.gpr).trans wellFormed.zero
  have word {pc : Word} {isa : Bool} (aligned : Aligned pc isa) :
      (!isa && pc &&& 3 != 0) = false := by
    cases isa with
    | true => rfl
    | false =>
        rw [aligned.word rfl]
        rfl
  have half {pc : Word} {isa : Bool} (aligned : Aligned pc isa) :
      (pc &&& 1 != 0) = false := by
    rw [aligned.half]
    rfl
  unfold compatible
  rw [zero, half wellFormed.pc, word wellFormed.pc]
  cases armed : c.delayed.armed with
  | true =>
      obtain ⟨notImmediate, target, isFrom⟩ := wellFormed.slot armed
      rw [half target, word target, half isFrom, word isFrom, notImmediate]
      simp
  | false =>
      rw [wellFormed.noSlot armed]
      simp

def encodeCore (c : Core β) : List Byte :=
  encodeWords (cells c.gpr) ++
    (bigEndian 4 c.pc.toNat ++
      (bigEndian 4 c.hi.toNat ++
        (bigEndian 4 c.lo.toNat ++
          (encodeBool c.isa ++
            (encodeWords (cells c.cop0) ++
              (bigEndian 4 c.delayed.target.toNat ++
                (bigEndian 4 c.delayed.from.toNat ++
                  (encodeBool c.delayed.isa ++
                    (encodeBool c.delayed.armed ++
                      (encodeBool c.delayed.immediate ++
                        (bigEndian 4 c.reserved.toNat ++
                          (encodeBool c.hasReservation ++
                            (encodeBool c.timerPending ++
                              bigEndian 1 c.pendingLines.toNat)))))))))))))

theorem registers_fit (registers : Register → Word) : (cells registers).length < wordLimit := by
  rw [cells_length]
  decide

theorem encodeCore_fits (c : Core β) : c.encodeCore.length < wordLimit := by
  simp [encodeCore, encodeBool, wordLimit]

theorem snapshot_eq (c : Core β) :
    c.snapshot = .ok (Writer.frame (ascii "cpu") snapshotVersion c.encodeCore) := by
  simp only [snapshot, newWriter_eq snapshotVersion (show ascii "cpu" ≠ [] by decide) (by decide),
    Writer.words_mk _ _ _ (registers_fit _), Writer.uint32_mk, Writer.bool_mk, Writer.uint8_mk,
    List.nil_append, List.append_assoc]
  exact Writer.blob_mk _ _ _ (by decide) c.encodeCore_fits

theorem readSnapshot_parses (c : Core β) (bus : β) :
    Parses (readSnapshot bus) c.encodeCore
      (if compatible (cells c.gpr) (cells c.cop0) c.pc c.isa c.delayed then .ok { c with bus }
      else .error "cpu: restore: incompatible register state") := by
  unfold readSnapshot encodeCore
  apply Parses.bind (.words (registers_fit c.gpr))
  apply Parses.bind (.uint32 c.pc)
  apply Parses.bind (.uint32 c.hi)
  apply Parses.bind (.uint32 c.lo)
  apply Parses.bind (.bool c.isa)
  apply Parses.bind (.words (registers_fit c.cop0))
  apply Parses.bind (.uint32 c.delayed.target)
  apply Parses.bind (.uint32 c.delayed.from)
  apply Parses.bind (.bool c.delayed.isa)
  apply Parses.bind (.bool c.delayed.armed)
  apply Parses.bind (.bool c.delayed.immediate)
  apply Parses.bind (.uint32 c.reserved)
  apply Parses.bind (.bool c.hasReservation)
  apply Parses.bind (.bool c.timerPending)
  apply Parses.bind_last (.uint8 c.pendingLines)
  apply Parses.wrapDone
  split
  next accepted =>
    apply Parses.require accepted
    rw [ofCells_cells, ofCells_cells]
    exact Parses.pure [] _
  next refused =>
    rw [Bool.not_eq_true] at refused
    dsimp only
    rw [refused]
    exact Parses.throw [] _

/-- Restoring a core's own snapshot comes down to the checks. -/
theorem restore_frame (c d : Core β) :
    d.restore (Writer.frame (ascii "cpu") snapshotVersion c.encodeCore) =
      if compatible (cells c.gpr) (cells c.cop0) c.pc c.isa c.delayed then
        .ok { c with bus := d.bus }
      else .error "cpu: restore: incompatible register state" :=
  restoring_frame (by decide) c.encodeCore_fits (by decide) (by decide)
    (readSnapshot_parses c d.bus)

/-- A well-formed core's snapshot is accepted, and every register of it comes
back. -/
theorem restore_snapshot {c : Core β} (wellFormed : c.WellFormed) :
    ∃ blob, c.snapshot = .ok blob ∧ ∀ d : Core β, d.restore blob = .ok { c with bus := d.bus } := by
  refine ⟨_, c.snapshot_eq, fun d => ?_⟩
  rw [restore_frame, if_pos (compatible_of_wellFormed wellFormed)]

theorem new_wellFormed {bus : β} {pc : Word} (aligned : pc &&& 3 = 0) :
    (Cpu.new bus pc).WellFormed where
  zero := rfl
  pc := .of_word aligned false
  slot isArmed := by cases isArmed
  noSlot _ := rfl

/-- What a core's well-formedness depends on is unchanged. -/
structure SameFlow (c c' : Core β) : Prop where
  zero : c'.gpr 0 = c.gpr 0
  pc : c'.pc = c.pc
  isa : c'.isa = c.isa
  delayed : c'.delayed = c.delayed

theorem Frame.sameFlow {c c' : Core β} (frame : Frame c c') : SameFlow c c' :=
  ⟨frame.zero, frame.pc, frame.isa, frame.delayed⟩

theorem WellFormed.of_sameFlow {c c' : Core β} (wellFormed : c.WellFormed)
    (same : SameFlow c c') : c'.WellFormed where
  zero := same.zero.trans wellFormed.zero
  pc := by
    rw [same.pc, same.isa]
    exact wellFormed.pc
  slot := by
    rw [same.delayed, same.isa]
    exact wellFormed.slot
  noSlot := by
    rw [same.delayed]
    exact wellFormed.noSlot

theorem tickCount_sameFlow (c : Core β) : SameFlow c c.tickCount := by
  unfold tickCount
  dsimp only
  split <;> exact ⟨rfl, rfl, rfl, rfl⟩

theorem beginStep_sameFlow (c : Core β) : SameFlow c c.beginStep := by
  unfold beginStep
  split
  · exact c.tickCount_sameFlow
  · exact ⟨rfl, rfl, rfl, rfl⟩

/-- A pump hands the core over, if it does, to an aligned entry point. -/
def EntryAligned (pumped : Pumped β) : Prop :=
  ∀ entry, pumped.entry = some entry → entry &&& 3 = 0

theorem WellFormed.afterPump {c : Core β} (wellFormed : c.WellFormed) {pumped : Pumped β}
    (aligned : EntryAligned pumped) : (c.afterPump pumped).WellFormed := by
  have served : (raise pumped.raised { c with bus := pumped.bus }).WellFormed :=
    wellFormed.of_sameFlow ⟨rfl, rfl, rfl, rfl⟩
  unfold Core.afterPump
  dsimp only
  split
  · exact served
  next entry isEntry =>
    unfold enter
    split
    · exact served
    next noSlot =>
      have noSlot : c.delayed.armed = false := Bool.eq_false_iff.mpr noSlot
      refine ⟨?_, .of_word (aligned entry isEntry) false, ?_, fun _ => wellFormed.noSlot noSlot⟩
      · exact (Function.update_of_ne (show (0 : Register) ≠ 31 by decide) 0 c.gpr).trans
          wellFormed.zero
      · intro isArmed
        exact absurd (noSlot.symm.trans isArmed) (by decide)

theorem serviceInterrupt_wellFormed {c : Core β} (wellFormed : c.WellFormed)
    (noSlot : c.delayed.armed = false) : c.serviceInterrupt.2.WellFormed := by
  unfold serviceInterrupt
  split
  · refine ⟨wellFormed.zero, .of_word ?_ false, ?_, fun _ => wellFormed.noSlot noSlot⟩
    · dsimp only
      split <;> rfl
    · intro isArmed
      exact absurd (noSlot.symm.trans isArmed) (by decide)
  · exact wellFormed

/-- The conditions of one step: the boundary pump enters at an aligned address,
and an instruction outside a delay slot that jumps through a register lands. -/
structure StepAligned (ops : BusOps β) (beforeVector : Option (Pump β)) (c : Core β) : Prop where
  entry : ∀ pump, beforeVector = some pump →
    EntryAligned (pump (c.beginStep.serviceInterrupt.2.tickCount))
  jump : (c.beginStep.acceptInterrupt beforeVector).1.delayed.armed = false →
    (c.beginStep.acceptInterrupt beforeVector).1.JumpLands ops

theorem acceptInterrupt_wellFormed {c : Core β} (wellFormed : c.WellFormed)
    {beforeVector : Option (Pump β)}
    (entry : ∀ pump, beforeVector = some pump →
      EntryAligned (pump c.serviceInterrupt.2.tickCount)) :
    (c.acceptInterrupt beforeVector).1.WellFormed := by
  unfold acceptInterrupt
  split
  · exact wellFormed
  next noSlot =>
    have noSlot : c.delayed.armed = false := by simpa using noSlot
    have serviced := serviceInterrupt_wellFormed wellFormed noSlot
    cases result : c.serviceInterrupt with
    | mk accepted c' =>
        rw [result] at serviced entry
        cases accepted with
        | false => exact serviced
        | true =>
            have ticked := serviced.of_sameFlow c'.tickCount_sameFlow
            cases beforeVector with
            | none => exact ticked
            | some pump => exact ticked.afterPump (entry pump rfl)

theorem WellFormed.clearZero {c : Core β} (pc : Aligned c.pc c.isa)
    (slot : c.delayed.armed = true →
      c.delayed.immediate = false ∧ Aligned c.delayed.target c.delayed.isa ∧
        Aligned c.delayed.from c.isa)
    (noSlot : c.delayed.armed = false → c.delayed = {}) : c.clearZero.WellFormed :=
  ⟨Function.update_self (0 : Register) 0 c.gpr, pc, slot, noSlot⟩

theorem Aligned.add {pc offset : Word} {isa : Bool} (aligned : Aligned pc isa)
    (offsetAligned : Aligned offset isa) : Aligned (pc + offset) isa :=
  ⟨and_one_add aligned.half offsetAligned.half,
    fun isMips32 => and_three_add (aligned.word isMips32) (offsetAligned.word isMips32)⟩

theorem follow_wellFormed {c : Core β} (wellFormed : c.WellFormed) {effect : Branch}
    {length : Word} (lengthAligned : Aligned length c.isa)
    (lands : c.delayed.armed = false → effect.Lands) :
    (c.follow effect length).1.WellFormed := by
  have next := Aligned.add wellFormed.pc lengthAligned
  unfold follow
  split
  next isArmed =>
    split
    · exact wellFormed
    · exact .clearZero (wellFormed.slot isArmed).2.1 (fun isArmed => by cases isArmed) fun _ => rfl
  next noSlot =>
    have noSlot : c.delayed.armed = false := by simpa using noSlot
    have lands := lands noSlot
    split
    next isArmed =>
      apply WellFormed.clearZero next
      · intro _
        exact ⟨lands.exclusive isArmed, lands.aligned (.inl isArmed), wellFormed.pc⟩
      · intro notArmed
        exact absurd (notArmed.symm.trans isArmed) (by decide)
    · have stays : c.delayed.armed = true →
          c.delayed.immediate = false ∧ Aligned c.delayed.target c.delayed.isa ∧
            ∀ isa, Aligned c.delayed.from isa := by
        intro isArmed
        exact absurd (noSlot.symm.trans isArmed) (by decide)
      split
      next isImmediate =>
        apply WellFormed.clearZero (lands.aligned (.inr isImmediate))
        · intro isArmed
          exact ⟨(stays isArmed).1, (stays isArmed).2.1, (stays isArmed).2.2 _⟩
        · exact wellFormed.noSlot
      · apply WellFormed.clearZero
        · dsimp only
          split
          · exact Aligned.add next (.of_word rfl _)
          · exact next
        · exact wellFormed.slot
        · exact wellFormed.noSlot

/-- A step whose conditions hold keeps the core well formed, also where it
fails. -/
theorem step_wellFormed {ops : BusOps β} {beforeVector : Option (Pump β)} {c : Core β}
    (wellFormed : c.WellFormed) (aligned : c.StepAligned ops beforeVector) :
    (c.stepWithInterruptBoundary ops beforeVector).1.WellFormed := by
  have accepted := acceptInterrupt_wellFormed (wellFormed.of_sameFlow c.beginStep_sameFlow)
    aligned.entry
  have jump := aligned.jump
  unfold stepWithInterruptBoundary
  cases result : c.beginStep.acceptInterrupt beforeVector with
  | mk begun outcome =>
      rw [result] at accepted jump
      cases outcome with
      | error error => exact accepted
      | ok _ =>
          have executed := execute_completes ops begun
          dsimp only
          cases ran : begun.execute ops with
          | mk c' effect =>
              rw [ran] at executed
              have kept := accepted.of_sameFlow executed.frame.sameFlow
              cases effect with
              | error error => exact kept
              | ok effect =>
                  have completes := executed.good effect rfl
                  have frame := executed.frame
                  apply follow_wellFormed kept
                  · rw [frame.isa]
                    exact completes.length
                  · intro noSlot
                    rw [frame.delayed] at noSlot
                    exact completes.lands (jump noSlot)

theorem setDebugPC_wellFormed {c c' : Core β} (wellFormed : c.WellFormed) {pc : Word} {isa : Bool}
    (moved : c.setDebugPC pc isa = .ok c') : c'.WellFormed := by
  unfold setDebugPC at moved
  split at moved
  · cases moved
  next accepted =>
    rw [← Except.ok.inj moved]
    refine ⟨wellFormed.zero, ?_, fun isArmed => (by cases isArmed), fun _ => rfl⟩
    cases isa with
    | true => exact .of_half (by simpa using accepted)
    | false => exact .of_word (by simpa using accepted) false

/-- Every jump through a register and every handoff in a run lands. -/
structure RunsAligned (ops : BusOps β) (c : Core β) (actions : List (Action β)) : Prop where
  step : ∀ before beforeVector after, actions = before ++ .step beforeVector :: after →
    (c.run ops before).StepAligned ops beforeVector
  pump : ∀ before pump after, actions = before ++ .pump pump :: after →
    EntryAligned (pump (c.run ops before))

namespace RunsAligned

variable {ops : BusOps β} {c : Core β} {actions : List (Action β)}

theorem nil : RunsAligned ops c [] where
  step before beforeVector after split := by simp at split
  pump before p after split := by simp at split

theorem cons_step {beforeVector : Option (Pump β)} (first : c.StepAligned ops beforeVector)
    (rest : RunsAligned ops (c.perform ops (.step beforeVector)) actions) :
    RunsAligned ops c (.step beforeVector :: actions) where
  step before pump after split := by
    cases before with
    | nil =>
        rw [List.nil_append, List.cons.injEq, Action.step.injEq] at split
        rw [← split.1]
        exact first
    | cons action before =>
        rw [List.cons_append, List.cons.injEq] at split
        rw [← split.1]
        exact rest.step before pump after split.2
  pump before p after split := by
    cases before with
    | nil => simp at split
    | cons action before =>
        rw [List.cons_append, List.cons.injEq] at split
        rw [← split.1]
        exact rest.pump before p after split.2

end RunsAligned

theorem perform_wellFormed {ops : BusOps β} {c : Core β} {action : Action β}
    (wellFormed : c.WellFormed)
    (step : ∀ beforeVector, action = .step beforeVector → c.StepAligned ops beforeVector)
    (pump : ∀ p, action = .pump p → EntryAligned (p c)) :
    (c.perform ops action).WellFormed := by
  cases action with
  | interrupt ip => exact wellFormed.of_sameFlow ⟨rfl, rfl, rfl, rfl⟩
  | pump p => exact wellFormed.afterPump (pump p rfl)
  | step beforeVector => exact step_wellFormed wellFormed (step beforeVector rfl)
  | debug pc isa =>
      unfold perform
      dsimp only
      split
      · exact wellFormed
      next moved => exact setDebugPC_wellFormed wellFormed moved

theorem run_wellFormed {ops : BusOps β} {c : Core β} {actions : List (Action β)}
    (wellFormed : c.WellFormed) (aligned : c.RunsAligned ops actions) :
    (c.run ops actions).WellFormed := by
  induction actions generalizing c with
  | nil => exact wellFormed
  | cons action actions ih =>
      apply ih
      · apply perform_wellFormed wellFormed
        · rintro beforeVector rfl
          exact aligned.step [] beforeVector actions rfl
        · rintro p rfl
          exact aligned.pump [] p actions rfl
      · constructor
        · intro before beforeVector after split
          exact aligned.step (action :: before) beforeVector after (by rw [split]; rfl)
        · intro before p after split
          exact aligned.pump (action :: before) p after (by rw [split]; rfl)

end Core

end Cpu

end GoRetroTv
