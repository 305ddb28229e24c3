import GoRetroTv.CpuInterrupts
import GoRetroTv.CpuSnapshot

/-!
# What every run of the processor keeps

Whatever a program does, it executes at even addresses and reads zero from
register zero.
-/

namespace GoRetroTv

namespace Cpu

/-- A transfer of control goes to an even address. -/
def Branch.Even (effect : Branch) : Prop :=
  effect.armed = true ∨ effect.immediate = true → effect.target &&& 1 = 0

theorem even_none (target : Word) : Branch.Even { target } := by
  intro moves
  simp at moves

theorem even_of_target {effect : Branch} (even : effect.target &&& 1 = 0) : effect.Even :=
  fun _ => even

theorem clear_bit_even (v : Word) : v &&& ~~~1 &&& 1 = 0 := by
  rw [BitVec.and_assoc]
  exact BitVec.and_zero

theorem even_jumpTo (v : Word) : (jumpTo v).Even :=
  even_of_target (clear_bit_even v)

/-- A branch relative to an even address. -/
theorem even_relative {pc offset : Word} (even : pc &&& 1 = 0) (w : Word)
    (offsetEven : offset &&& 1 = 0) : (taken (pc + offset + w <<< 2) false).Even :=
  even_of_target
    (and_one_add (and_one_add even offsetEven)
      (and_one_eq_zero_of_and_three (shiftLeft_two_and_three w)))

namespace Core

variable {β : Type} {c : Core β} {w : Word}

open Mips32

/-- What an executed instruction asks for is even. -/
abbrev EvenEffect (result : Executed β) : Prop :=
  ∀ effect, result.2 = .ok effect → effect.Even

theorem evenEffect_retire : EvenEffect c.retire := by
  intro effect isEffect
  cases isEffect
  exact even_none 0

theorem evenEffect_transfer {effect : Branch} (even : effect.Even) :
    EvenEffect (c.transfer effect) := by
  intro effect' isEffect
  cases isEffect
  exact even

theorem evenEffect_refuse (error : String) : EvenEffect (c.refuse error) := by
  intro effect isEffect
  cases isEffect

theorem evenEffect_branchTo (even : c.pc &&& 1 = 0) (ok : Bool) :
    EvenEffect (c.branchTo w ok) := by
  unfold branchTo
  split
  · exact evenEffect_transfer (even_relative even _ (by decide))
  · exact evenEffect_retire

theorem evenEffect_branchLikelyTo (even : c.pc &&& 1 = 0) (ok : Bool) :
    EvenEffect (c.branchLikelyTo w ok) := by
  unfold branchLikelyTo
  split
  · exact evenEffect_branchTo even true
  · exact evenEffect_transfer (even_none skipSlot)

theorem set_pc (register : Register) (value : Word) (c : Core β) :
    (c.set register value).pc = c.pc := by
  unfold Core.set
  split <;> rfl

theorem special_even : EvenEffect (c.special w) := by
  unfold special
  dsimp only
  split
  all_goals first
    | exact evenEffect_retire
    | exact evenEffect_transfer (even_jumpTo _)
    | exact evenEffect_refuse _
    | (split <;> exact evenEffect_retire)

theorem regimm_even (even : c.pc &&& 1 = 0) : EvenEffect (c.regimm w) := by
  have linked : (c.set 31 (c.pc + 4 + 4)).pc &&& 1 = 0 := by rwa [set_pc]
  unfold regimm
  dsimp only
  split
  all_goals first
    | exact evenEffect_branchTo even _
    | exact evenEffect_branchLikelyTo even _
    | exact evenEffect_branchTo linked _
    | exact evenEffect_branchLikelyTo linked _
    | exact evenEffect_refuse _

theorem coprocessor0_even : EvenEffect (c.coprocessor0 w) := by
  unfold coprocessor0
  dsimp only
  split
  · exact evenEffect_retire
  · split <;> exact evenEffect_retire
  · split
    · exact evenEffect_refuse _
    · split <;> exact evenEffect_transfer (even_of_target (clear_bit_even _))
  · exact evenEffect_refuse _

theorem memory_even (ops : BusOps β) : EvenEffect (c.memory ops w) := by
  unfold memory
  dsimp only
  split
  all_goals first
    | exact evenEffect_retire
    | (split <;> exact evenEffect_retire)

theorem execute32_even (ops : BusOps β) (even : c.pc &&& 1 = 0) :
    EvenEffect (c.execute32 ops w) := by
  have absolute (pc index : Word) (isa : Bool) : (taken (jumpTarget pc index) isa).Even :=
    even_of_target (and_one_eq_zero_of_and_three (jump_target_and_three pc index))
  unfold execute32
  dsimp only
  split
  all_goals first
    | exact evenEffect_retire
    | exact evenEffect_refuse _
    | exact evenEffect_transfer (absolute _ _ _)
    | exact evenEffect_branchTo even _
    | exact evenEffect_branchLikelyTo even _
    | exact special_even
    | exact regimm_even even
    | exact coprocessor0_even
    | exact memory_even ops

/-- What a 16-bit instruction asks for is even. -/
abbrev EvenEffect16 (result : Executed16 β) : Prop :=
  ∀ effect, result.2 = .ok effect → effect.1.Even

section

variable {f : Fetched16}

theorem evenEffect_retire16 : EvenEffect16 (c.retire16 f) := by
  intro effect isEffect
  cases isEffect
  exact even_none 0

theorem evenEffect_transfer16 {effect : Branch} (even : effect.Even) :
    EvenEffect16 (c.transfer16 f effect) := by
  intro effect' isEffect
  cases isEffect
  exact even

theorem evenEffect_refuse16 (reason : String) : EvenEffect16 (c.refuse16 f reason) := by
  intro effect isEffect
  cases isEffect

variable (even : f.pc &&& 1 = 0)

include even

theorem evenEffect_instantIf (ok : Bool) (offset : Word) :
    EvenEffect16 (c.instantIf f ok (offset <<< 1)) := by
  have next : f.next &&& 1 = 0 := by
    apply and_one_add even
    unfold Fetched16.length
    split <;> rfl
  unfold instantIf
  split
  · exact evenEffect_transfer16 (even_of_target (and_one_add next (shiftLeft_one_and_one offset)))
  · exact evenEffect_retire16

theorem i8_even (ops : BusOps β) : EvenEffect16 (c.i8 ops f) := by
  unfold i8
  dsimp only
  split
  all_goals first
    | exact evenEffect_refuse16 _
    | split
  all_goals first
    | exact evenEffect_instantIf even _ _
    | exact evenEffect_refuse16 _
    | exact evenEffect_retire16

omit even in
theorem rr_even : EvenEffect16 (c.rr f) := by
  unfold rr
  dsimp only
  split
  · exact evenEffect_refuse16 _
  split
  case h_1 =>
    unfold jr16
    dsimp only
    split
    · exact evenEffect_refuse16 _
    split
    · exact evenEffect_transfer16 (even_jumpTo _)
    split
    · exact evenEffect_transfer16 (even_of_target (clear_bit_even _))
    · exact evenEffect_refuse16 _
  case h_15 =>
    unfold convert16
    dsimp only
    split
    all_goals first
      | exact evenEffect_retire16
      | exact evenEffect_refuse16 _
  all_goals first
    | exact evenEffect_retire16
    | exact evenEffect_refuse16 _
    | split
  all_goals first
    | exact evenEffect_retire16
    | exact evenEffect_refuse16 _

omit even in
theorem memory16_even (ops : BusOps β) : EvenEffect16 (c.memory16 ops f) := by
  unfold memory16
  dsimp only
  split <;> exact evenEffect_retire16

omit even in
theorem wordAccess16_even (ops : BusOps β) : EvenEffect16 (c.wordAccess16 ops f) := by
  unfold wordAccess16
  dsimp only
  split
  · split <;> exact evenEffect_retire16
  · exact evenEffect_refuse16 _

theorem dispatch16_even (ops : BusOps β) : EvenEffect16 (c.dispatch16 ops f) := by
  unfold dispatch16
  dsimp only
  split
  case h_4 =>
    unfold jal16
    split
    · exact evenEffect_refuse16 _
    · intro effect isEffect
      cases isEffect
      exact even_of_target (and_one_eq_zero_of_and_three (jump_target_and_three _ _))
  case h_7 =>
    unfold shift16
    dsimp only
    split
    · exact evenEffect_refuse16 _
    split
    · exact evenEffect_refuse16 _
    split <;> exact evenEffect_retire16
  case h_12 => exact i8_even even ops
  case h_27 => exact rr_even
  all_goals first
    | exact memory16_even ops
    | exact wordAccess16_even ops
    | exact evenEffect_refuse16 _
    | split
  all_goals first
    | exact evenEffect_retire16
    | exact evenEffect_refuse16 _
    | exact evenEffect_instantIf even _ _
    | split
  all_goals first
    | exact evenEffect_retire16
    | exact evenEffect_refuse16 _

end

/-- Whatever the instruction at an even address asks for is even. -/
theorem execute_even (ops : BusOps β) (even : c.pc &&& 1 = 0) : EvenEffect16 (c.execute ops) := by
  unfold execute
  split
  · split
    · intro effect isEffect
      cases isEffect
    · obtain ⟨_, pc⟩ := fetch16_spec ops c
      rw [← pc] at even
      have dispatched := dispatch16_even (c := (c.fetch16 ops).2) even ops
      change EvenEffect16 (c.execute16 ops) at dispatched
      cases result : c.execute16 ops with
      | mk c' outcome =>
          rw [result] at dispatched
          cases outcome with
          | error error =>
              intro effect isEffect
              cases isEffect
          | ok effect => exact dispatched
  · split
    · intro effect isEffect
      cases isEffect
    · have executed := execute32_even (w := (c.load ops c.pc .word).1)
        (c := (c.load ops c.pc .word).2) ops even
      dsimp only
      cases result : (c.load ops c.pc .word).2.execute32 ops (c.load ops c.pc .word).1 with
      | mk c' outcome =>
          rw [result] at executed
          cases outcome with
          | error error =>
              intro effect isEffect
              cases isEffect
          | ok effect =>
              intro effect' isEffect
              cases isEffect
              exact executed effect rfl

/-- The core executes at an even address, and so does the target of a slot. -/
structure EvenFlow (c : Core β) : Prop where
  pc : c.pc &&& 1 = 0
  slot : c.delayed.armed = true → c.delayed.target &&& 1 = 0

theorem EvenFlow.of_sameFlow {c c' : Core β} (even : c.EvenFlow) (same : SameFlow c c') :
    c'.EvenFlow where
  pc := by
    rw [same.pc]
    exact even.pc
  slot := by
    rw [same.delayed]
    exact even.slot

theorem EvenFlow.afterPump {c : Core β} (even : c.EvenFlow) {pumped : Pumped β}
    (entryEven : ∀ entry, pumped.entry = some entry → entry &&& 1 = 0) :
    (c.afterPump pumped).EvenFlow := by
  have served : (raise pumped.raised { c with bus := pumped.bus }).EvenFlow :=
    even.of_sameFlow ⟨rfl, rfl, rfl, rfl⟩
  unfold Core.afterPump
  dsimp only
  split
  · exact served
  next entry isEntry =>
    unfold enter
    split
    · exact served
    · exact ⟨entryEven entry isEntry, served.slot⟩

theorem serviceInterrupt_evenFlow {c : Core β} (even : c.EvenFlow) :
    c.serviceInterrupt.2.EvenFlow := by
  unfold serviceInterrupt
  split
  · refine ⟨?_, even.slot⟩
    dsimp only
    split <;> rfl
  · exact even

/-- The address a host moves the core to in an action, if it does. -/
def handover (action : Action β) (c : Core β) : Option Word :=
  match action with
  | .pump pump => (pump c).entry
  | .step (some pump) => if c.Accepts then (pump c.atVector).entry else none
  | _ => none

theorem acceptInterrupt_evenFlow {c : Core β} (even : c.EvenFlow)
    {beforeVector : Option (Pump β)}
    (entryEven : ∀ entry, handover (.step beforeVector) c = some entry → entry &&& 1 = 0) :
    (c.beginStep.acceptInterrupt beforeVector).1.EvenFlow := by
  have begun : c.beginStep.EvenFlow := even.of_sameFlow c.beginStep_sameFlow
  by_cases accepts : c.Accepts
  · have vector : c.atVector.EvenFlow :=
      (serviceInterrupt_evenFlow begun).of_sameFlow (tickCount_sameFlow _)
    rw [acceptInterrupt_of_accepts accepts]
    cases beforeVector with
    | none => exact vector
    | some pump =>
        apply vector.afterPump
        intro entry isEntry
        apply entryEven
        rw [handover, if_pos accepts]
        exact isEntry
  · rw [acceptInterrupt_of_not_accepts accepts]
    exact begun

theorem follow_evenFlow {c : Core β} (even : c.EvenFlow) {effect : Branch} {length : Word}
    (effectEven : effect.Even) (lengthEven : length &&& 1 = 0) :
    (c.follow effect length).1.EvenFlow := by
  have next := and_one_add even.pc lengthEven
  unfold follow
  split
  next isArmed =>
    split
    · exact even
    · exact ⟨even.slot isArmed, fun isArmed => by cases isArmed⟩
  · split
    next isArmed => exact ⟨next, fun _ => effectEven (.inl isArmed)⟩
    · split
      next isImmediate => exact ⟨effectEven (.inr isImmediate), even.slot⟩
      · refine ⟨?_, even.slot⟩
        unfold clearZero
        dsimp only
        split
        · exact and_one_add next rfl
        · exact next

theorem step_evenFlow {ops : BusOps β} {beforeVector : Option (Pump β)} {c : Core β}
    (even : c.EvenFlow)
    (entryEven : ∀ entry, handover (.step beforeVector) c = some entry → entry &&& 1 = 0) :
    (c.stepWithInterruptBoundary ops beforeVector).1.EvenFlow := by
  have accepted := acceptInterrupt_evenFlow even entryEven
  unfold stepWithInterruptBoundary
  cases result : c.beginStep.acceptInterrupt beforeVector with
  | mk begun outcome =>
      rw [result] at accepted
      cases outcome with
      | error error => exact accepted
      | ok _ =>
          have executed := execute_completes ops begun
          have effectEven := execute_even ops accepted.pc
          dsimp only
          cases ran : begun.execute ops with
          | mk c' effect =>
              rw [ran] at executed effectEven
              have kept := accepted.of_sameFlow executed.frame.sameFlow
              cases effect with
              | error error => exact kept
              | ok effect =>
                  exact follow_evenFlow kept (effectEven effect rfl)
                    (executed.good effect rfl).length.half

/-- Every handover of a run goes to an even address. -/
def EvenHandovers (ops : BusOps β) : Core β → List (Action β) → Prop
  | _, [] => True
  | c, action :: actions =>
      (∀ entry, handover action c = some entry → entry &&& 1 = 0) ∧
        EvenHandovers ops (c.perform ops action) actions

theorem perform_evenFlow {ops : BusOps β} {c : Core β} {action : Action β} (even : c.EvenFlow)
    (entryEven : ∀ entry, handover action c = some entry → entry &&& 1 = 0) :
    (c.perform ops action).EvenFlow := by
  cases action with
  | interrupt ip => exact even.of_sameFlow ⟨rfl, rfl, rfl, rfl⟩
  | pump pump => exact even.afterPump entryEven
  | step beforeVector => exact step_evenFlow even entryEven
  | debug pc isa =>
      unfold perform
      dsimp only
      split
      · exact even
      next moved =>
        unfold setDebugPC at moved
        split at moved
        · cases moved
        next accepted =>
          rw [← Except.ok.inj moved]
          refine ⟨?_, fun isArmed => by cases isArmed⟩
          cases isa with
          | true => simpa using accepted
          | false => exact and_one_eq_zero_of_and_three (by simpa using accepted)

theorem run_evenFlow {ops : BusOps β} {c : Core β} {actions : List (Action β)} (even : c.EvenFlow)
    (handovers : EvenHandovers ops c actions) : (c.run ops actions).EvenFlow := by
  induction actions generalizing c with
  | nil => exact even
  | cons action actions ih => exact ih (perform_evenFlow even handovers.1) handovers.2

theorem afterPump_zero {c : Core β} (zero : c.gpr 0 = 0) (pumped : Pumped β) :
    (c.afterPump pumped).gpr 0 = 0 := by
  unfold afterPump
  dsimp only
  split
  · exact zero
  · unfold enter
    split
    · exact zero
    · exact (Function.update_of_ne (show (0 : Register) ≠ 31 by decide) 0 _).trans zero

theorem serviceInterrupt_gpr (c : Core β) : c.serviceInterrupt.2.gpr = c.gpr := by
  unfold serviceInterrupt
  split <;> rfl

theorem tickCount_gpr (c : Core β) : c.tickCount.gpr = c.gpr := by
  unfold tickCount
  dsimp only
  split <;> rfl

theorem beginStep_gpr (c : Core β) : c.beginStep.gpr = c.gpr := by
  unfold beginStep
  split
  · exact c.tickCount_gpr
  · rfl

theorem atVector_gpr (c : Core β) : c.atVector.gpr = c.gpr := by
  rw [atVector, tickCount_gpr, serviceInterrupt_gpr, beginStep_gpr]

theorem acceptInterrupt_zero {c : Core β} (zero : c.gpr 0 = 0)
    (beforeVector : Option (Pump β)) :
    (c.beginStep.acceptInterrupt beforeVector).1.gpr 0 = 0 := by
  by_cases accepts : c.Accepts
  · have vector : c.atVector.gpr 0 = 0 := by rw [atVector_gpr, zero]
    rw [acceptInterrupt_of_accepts accepts]
    cases beforeVector with
    | none => exact vector
    | some pump => exact afterPump_zero vector _
  · rw [acceptInterrupt_of_not_accepts accepts, beginStep_gpr, zero]

theorem clearZero_zero (c : Core β) : c.clearZero.gpr 0 = 0 :=
  Function.update_self (0 : Register) 0 c.gpr

theorem follow_zero {c : Core β} (zero : c.gpr 0 = 0) (effect : Branch) (length : Word) :
    (c.follow effect length).1.gpr 0 = 0 := by
  unfold follow
  split
  · split
    · exact zero
    · exact clearZero_zero _
  · split
    · exact clearZero_zero _
    · split <;> exact clearZero_zero _

theorem step_zero {c : Core β} (zero : c.gpr 0 = 0) (ops : BusOps β)
    (beforeVector : Option (Pump β)) :
    (c.stepWithInterruptBoundary ops beforeVector).1.gpr 0 = 0 := by
  have accepted := acceptInterrupt_zero zero beforeVector
  unfold stepWithInterruptBoundary
  cases result : c.beginStep.acceptInterrupt beforeVector with
  | mk begun outcome =>
      rw [result] at accepted
      cases outcome with
      | error error => exact accepted
      | ok _ =>
          have frame := (execute_completes ops begun).frame
          dsimp only
          cases ran : begun.execute ops with
          | mk c' effect =>
              rw [ran] at frame
              have kept : c'.gpr 0 = 0 := frame.zero.trans accepted
              cases effect with
              | error error => exact kept
              | ok effect => exact follow_zero kept effect.1 effect.2

theorem perform_zero {c : Core β} (zero : c.gpr 0 = 0) (ops : BusOps β) (action : Action β) :
    (c.perform ops action).gpr 0 = 0 := by
  cases action with
  | interrupt ip => exact zero
  | pump pump => exact afterPump_zero zero _
  | step beforeVector => exact step_zero zero ops beforeVector
  | debug pc isa =>
      unfold perform
      dsimp only
      split
      · exact zero
      next moved =>
        unfold setDebugPC at moved
        split at moved
        · cases moved
        · cases moved
          exact zero

/-- Register zero reads as zero in every state of every run. -/
theorem run_zero {ops : BusOps β} {c : Core β} (zero : c.gpr 0 = 0) (actions : List (Action β)) :
    (c.run ops actions).gpr 0 = 0 := by
  induction actions generalizing c with
  | nil => exact zero
  | cons action actions ih => exact ih (perform_zero zero ops action)

end Core

end Cpu

end GoRetroTv
