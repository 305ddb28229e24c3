import GoRetroTv.CpuStep

/-!
# What a step does to the bus

An instruction reaches the bus through its reads and writes alone.  So whatever every access
keeps is kept by a step, if the board's own pump keeps it.
-/

namespace GoRetroTv

namespace Cpu

open Mips32

variable {β : Type}

/-- A bus that has served some accesses. -/
inductive Served (ops : BusOps β) (bus : β) : β → Prop
  | start : Served ops bus bus
  | read {before : β} (served : Served ops bus before) (address : Word) (size : Size) :
      Served ops bus (ops.read address size before).bus
  | write {before : β} (served : Served ops bus before) (address : Word) (size : Size)
      (value : Word) : Served ops bus (ops.write address size value before).1

namespace Served

variable {ops : BusOps β} {bus after : β}

/-- What every access keeps. -/
theorem keeps {kept : β → Prop} (read : ∀ b address size, kept b → kept (ops.read address size b).bus)
    (write : ∀ b address size value, kept b → kept (ops.write address size value b).1)
    (served : Served ops bus after) (before : kept bus) : kept after := by
  induction served with
  | start => exact before
  | read _ address size ih => exact read _ address size ih
  | write _ address size value ih => exact write _ address size value ih

end Served

namespace Core

section Fields

variable (c : Core β)

theorem branchTo_bus (w : Word) (ok : Bool) : (c.branchTo w ok).1.bus = c.bus := by
  unfold branchTo
  split <;> rfl

theorem branchLikelyTo_bus (w : Word) (ok : Bool) : (c.branchLikelyTo w ok).1.bus = c.bus := by
  unfold branchLikelyTo
  split
  · exact c.branchTo_bus w true
  · rfl

variable (f : Fetched16)

theorem instantIf_bus (ok : Bool) (offset : Word) : (c.instantIf f ok offset).1.bus = c.bus := by
  unfold instantIf
  split <;> rfl

theorem tickCount_bus : c.tickCount.bus = c.bus := by
  unfold tickCount
  dsimp only
  split <;> rfl

end Fields

section Registers

variable {c : Core β} {w : Word} {f : Fetched16}

theorem special_bus : (c.special w).1.bus = c.bus := by
  unfold special
  dsimp only
  split
  all_goals first
    | rfl
    | exact set_bus _ _ c
    | (split <;> rfl)

theorem regimm_bus : (c.regimm w).1.bus = c.bus := by
  unfold regimm
  dsimp only
  split
  all_goals first
    | rfl
    | exact branchTo_bus c w _
    | exact branchLikelyTo_bus c w _
    | exact (branchTo_bus _ w _).trans (set_bus _ _ c)
    | exact (branchLikelyTo_bus _ w _).trans (set_bus _ _ c)

theorem coprocessor0_bus : (c.coprocessor0 w).1.bus = c.bus := by
  unfold coprocessor0
  dsimp only
  split
  · exact set_bus _ _ c
  · split <;> rfl
  · split
    · rfl
    · split <;> rfl
  · rfl

theorem shift16_bus : (c.shift16 f).1.bus = c.bus := by
  unfold shift16
  dsimp only
  split
  · rfl
  · split
    · rfl
    · split <;> exact set_bus _ _ c

theorem jr16_bus : (c.jr16 f).1.bus = c.bus := by
  unfold jr16
  dsimp only
  -- The link register is written before the jump.
  have linked : (if f.ry = 2 then c.set 31 (f.pc + 4 ||| 1)
      else if f.ry = 6 then c.set 31 (f.pc + 2 ||| 1) else c).bus = c.bus := by
    split
    · exact set_bus _ _ c
    · split
      · exact set_bus _ _ c
      · rfl
  split
  · rfl
  · split
    · exact linked
    · split <;> exact linked

theorem convert16_bus : (c.convert16 f).1.bus = c.bus := by
  unfold convert16
  dsimp only
  split <;> first | rfl | exact set_bus _ _ c

theorem rr_bus : (c.rr f).1.bus = c.bus := by
  unfold rr
  dsimp only
  split
  · rfl
  · split
    all_goals first
      | rfl
      | exact set_bus _ _ c
      | exact jr16_bus
      | exact convert16_bus
      | (split
         · rfl
         · exact set_bus _ _ c)
      | (split <;> rfl)

end Registers

section Accesses

variable {c : Core β} {w : Word} {f : Fetched16} {ops : BusOps β}

theorem load_served (address : Word) (size : Size) :
    Served ops c.bus (c.load ops address size).2.bus :=
  .read .start address size

theorem store_served (address : Word) (size : Size) (value : Word) :
    Served ops c.bus (c.store ops address size value).bus :=
  .write .start address size value

/-- A register that is written behind a load. -/
theorem loaded_served (address : Word) (size : Size) (register : Register) (value : Word) :
    Served ops c.bus ((c.load ops address size).2.set register value).bus := by
  rw [set_bus]
  exact load_served address size

theorem memory_served : Served ops c.bus (c.memory ops w).1.bus := by
  unfold memory
  dsimp only
  split
  case h_10 =>
    split
    · change Served ops c.bus ((c.store ops _ .word _).set _ _).bus
      rw [set_bus]
      exact store_served _ _ _
    · change Served ops c.bus (c.set _ _).bus
      rw [set_bus]
      exact .start
  case h_11 => exact .start
  all_goals first
    | exact loaded_served _ _ _ _
    | exact store_served _ _ _

theorem unaligned_served (op : Nat) (register : Register) (ea : Word) :
    Served ops c.bus (c.unaligned ops op register ea).bus := by
  unfold unaligned
  dsimp only
  split
  · exact loaded_served _ _ _ _
  · exact loaded_served _ _ _ _
  · exact .write (load_served _ _) _ _ _
  · exact .write (load_served _ _) _ _ _
  · exact load_served _ _

theorem Served.of_eq {bus after : β} (same : after = bus) : Served ops bus after := by
  rw [same]
  exact .start

theorem execute32_served : Served ops c.bus (c.execute32 ops w).1.bus := by
  unfold execute32
  dsimp only
  split
  all_goals first
    | exact memory_served
    | exact unaligned_served _ _ _
    | exact Served.of_eq rfl
    | exact Served.of_eq special_bus
    | exact Served.of_eq regimm_bus
    | exact Served.of_eq coprocessor0_bus
    | exact Served.of_eq (branchTo_bus c w _)
    | exact Served.of_eq (branchLikelyTo_bus c w _)
    | exact Served.of_eq (set_bus _ _ c)

theorem jal16_served : Served ops c.bus (c.jal16 ops f).1.bus := by
  unfold jal16
  split
  · exact .start
  · exact loaded_served _ _ _ _

theorem i8_served : Served ops c.bus (c.i8 ops f).1.bus := by
  unfold i8
  dsimp only
  split
  all_goals first
    | exact .start
    | (split
       · first
         | exact Served.of_eq (instantIf_bus c f _ _)
         | exact store_served _ _ _
         | exact Served.of_eq (set_bus _ _ c)
         | exact .start
       · first
         | exact .start
         | exact Served.of_eq (set_bus _ _ c))

theorem memory16_served : Served ops c.bus (c.memory16 ops f).1.bus := by
  unfold memory16
  dsimp only
  split
  all_goals first
    | exact loaded_served _ _ _ _
    | exact store_served _ _ _

theorem wordAccess16_served : Served ops c.bus (c.wordAccess16 ops f).1.bus := by
  unfold wordAccess16
  dsimp only
  split
  · split
    · exact store_served _ _ _
    · exact loaded_served _ _ _ _
    · exact loaded_served _ _ _ _
  · exact .start

theorem dispatch16_served : Served ops c.bus (c.dispatch16 ops f).1.bus := by
  unfold dispatch16
  dsimp only
  split
  all_goals first
    | exact .start
    | exact jal16_served
    | exact i8_served
    | exact memory16_served
    | exact wordAccess16_served
    | exact Served.of_eq shift16_bus
    | exact Served.of_eq rr_bus
    | (split
       · first
         | exact Served.of_eq (instantIf_bus c f _ _)
         | exact Served.of_eq (set_bus _ _ c)
         | exact .start
       · first
         | exact .start
         | exact Served.of_eq (instantIf_bus c f _ _)
         | exact Served.of_eq (set_bus _ _ c)
         | (split
            · exact Served.of_eq (set_bus _ _ c)
            · exact Served.of_eq (set_bus _ _ c)
            · exact .start))

theorem Served.trans {ops : BusOps β} {first second third : β} (before : Served ops first second)
    (after : Served ops second third) : Served ops first third := by
  induction after with
  | start => exact before
  | read _ address size ih => exact .read ih address size
  | write _ address size value ih => exact .write ih address size value

theorem fetch16_served : Served ops c.bus (c.fetch16 ops).2.bus := by
  unfold fetch16
  dsimp only
  split
  · exact .read (load_served _ _) _ _
  · exact load_served _ _

/-- An instruction takes the bus through its own accesses. -/
theorem execute_served (ops : BusOps β) (c : Core β) : Served ops c.bus (c.execute ops).1.bus := by
  unfold execute
  split
  · split
    · exact .start
    · have executed : Served ops c.bus (c.execute16 ops).1.bus :=
        Served.trans fetch16_served dispatch16_served
      split <;> next result => rw [result] at executed; exact executed
  · split
    · exact .start
    · have executed : Served ops c.bus
          ((c.load ops c.pc .word).2.execute32 ops (c.load ops c.pc .word).1).1.bus :=
        Served.trans (load_served _ _) execute32_served
      dsimp only
      split <;> next result => rw [result] at executed; exact executed

end Accesses

variable {ops : BusOps β} {pump : Pump β} {c : Core β}

theorem begun_bus : c.beginStep.bus = c.bus := by
  unfold beginStep
  split
  · exact c.tickCount_bus
  · rfl

theorem serviceInterrupt_bus : c.serviceInterrupt.2.bus = c.bus := by
  unfold serviceInterrupt
  split <;> rfl

theorem follow_bus (effect : Branch) (length : Word) : (c.follow effect length).1.bus = c.bus := by
  unfold follow
  split
  · split <;> rfl
  · split
    · rfl
    · split <;> rfl

theorem enter_bus (entry : Word) : (c.enter entry).bus = c.bus := by
  unfold enter
  split <;> rfl

theorem afterPump_bus (pumped : Pumped β) : (c.afterPump pumped).bus = pumped.bus := by
  unfold afterPump
  split
  · rfl
  · exact enter_bus _

/-- The core that the boundary of an accepted interrupt pumps, if one is accepted. -/
def atBoundary (c : Core β) : Option (Core β) :=
  if c.delayed.armed then none
  else
    match c.serviceInterrupt with
    | (false, _) => none
    | (true, c) => some c.tickCount

theorem atBoundary_bus {reached : Core β} (at_ : c.atBoundary = some reached) :
    reached.bus = c.bus := by
  have serviced := @serviceInterrupt_bus β c
  unfold atBoundary at at_
  split at at_
  · cases at_
  · split at at_
    · cases at_
    next result =>
      cases at_
      rw [result] at serviced
      rw [tickCount_bus]
      exact serviced

/-- The boundary is pumped if an interrupt is accepted, and then once. -/
theorem acceptInterrupt_atBoundary (pump : Pump β) (c : Core β) :
    (∃ reached, c.atBoundary = some reached ∧
      c.acceptInterrupt (some pump) = (reached.afterPump (pump reached), (pump reached).result)) ∨
    (c.atBoundary = none ∧ (c.acceptInterrupt (some pump)).2 = .ok () ∧
      (c.acceptInterrupt (some pump)).1.bus = c.bus) := by
  have serviced := @serviceInterrupt_bus β c
  unfold atBoundary acceptInterrupt
  by_cases slot : c.delayed.armed = true
  · rw [if_pos slot, if_pos slot]
    exact .inr ⟨rfl, rfl, rfl⟩
  · rw [if_neg slot, if_neg slot]
    cases result : c.serviceInterrupt with
    | mk accepted after =>
      rw [result] at serviced
      cases accepted with
      | false => exact .inr ⟨rfl, rfl, serviced⟩
      | true => exact .inl ⟨_, rfl, rfl⟩

/-- **The bus behind a step.**  What the accesses keep, and the pump of the boundary if there is
one, the step keeps. -/
theorem step_keeps {kept : β → Prop}
    (read : ∀ b address size, kept b → kept (ops.read address size b).bus)
    (write : ∀ b address size value, kept b → kept (ops.write address size value b).1)
    (before : kept c.bus)
    (pumps : ∀ reached, c.beginStep.atBoundary = some reached →
      (pump reached).result = .ok () → kept (pump reached).bus)
    (ok : (c.stepWithInterruptBoundary ops (some pump)).2 = .ok ()) :
    kept (c.stepWithInterruptBoundary ops (some pump)).1.bus := by
  have begun : kept c.beginStep.bus := by
    rw [begun_bus]
    exact before
  have accepted : (c.beginStep.acceptInterrupt (some pump)).2 = .ok () →
      kept (c.beginStep.acceptInterrupt (some pump)).1.bus := by
    rcases acceptInterrupt_atBoundary pump c.beginStep with ⟨reached, at_, same⟩ | ⟨-, -, same⟩
    · rw [same]
      intro ok
      rw [afterPump_bus]
      exact pumps reached at_ ok
    · intro _
      rw [same]
      exact begun
  unfold stepWithInterruptBoundary at ok ⊢
  generalize c.beginStep.acceptInterrupt (some pump) = first at accepted ok ⊢
  obtain ⟨reached, result⟩ := first
  cases result with
  | error error => cases ok
  | ok _ =>
    have executed := (execute_served ops reached).keeps read write (accepted rfl)
    dsimp only at ok ⊢
    generalize reached.execute ops = second at executed ok ⊢
    obtain ⟨after, result⟩ := second
    cases result with
    | error error => cases ok
    | ok effect =>
      dsimp only
      rw [follow_bus]
      exact executed

end Core

end Cpu

end GoRetroTv
