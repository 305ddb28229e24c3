import GoRetroTv.CpuSnapshot
import GoRetroTv.DmaSnapshot
import GoRetroTv.I2cSnapshot

/-!
# State owners and their own snapshots

The core, the serial bus master and the DMA controller each accept what they
wrote, as long as the program's jumps through registers land and the host tells
its failures briefly.
-/

namespace GoRetroTv

open Cpu Snapcodec

/-- After any run the core, the serial bus master and the DMA controller accept
their own snapshots, and every field comes back. -/
theorem owners_restore_own_snapshots {β : Type} (ops : BusOps β) (bus : β) {pc : Word}
    (reset : pc &&& 3 = 0) (program : List (Cpu.Action β))
    (lands : (Cpu.new bus pc).RunsAligned ops program)
    (store : Option Eeprom.Store) (demod : Bool) (transfers : List I2c.Controller.Action)
    (short : I2c.Controller.ShortFaults transfers) (wire : Irq.Wire)
    (commands : List Dma.Action) (media : Dma.Media) :
    (let core := (Cpu.new bus pc).run ops program
      ∃ blob, core.snapshot = .ok blob ∧
        ∀ d : Core β, d.restore blob = .ok { core with bus := d.bus }) ∧
    (let new : I2c.Controller := { store, demod := if demod then some {} else none }
      let i2c := (I2c.Controller.run transfers (new, wire)).1
      ∃ blob, i2c.snapshot = .ok blob ∧
        ∀ d line, i2c.SameSlaves d →
          d.restore blob line =
            .ok ({ i2c with imagePath := d.imagePath },
              line.setLine I2c.irqMask (i2c.enable ≠ 0 ∧ i2c.status ≠ 0))) ∧
    (let dma := (Dma.runActions commands { media with dma := {} }).dma
      ∃ blob, dma.snapshot = .ok blob ∧
        ∀ media : Dma.Media, Dma.restore blob media = .ok { media with dma }.updateLine) := by
  refine ⟨?_, ?_, ?_⟩
  · exact Core.restore_snapshot (Core.run_wellFormed (Core.new_wellFormed reset) lands)
  · apply I2c.Controller.restore_snapshot
    apply I2c.Controller.run_wellFormed _ short
    apply I2c.Controller.new_wellFormed
    intro m isModel
    cases demod with
    | false => cases isModel
    | true => cases isModel; exact Demod.Model.new_wellFormed
  · have fault := Dma.runActions_shortFault commands (Dma.new_shortFault media)
    exact ⟨_, Dma.Controller.snapshot_eq fault, Dma.Controller.restore_blobOf fault⟩

/-- A program in read-only memory: load register one, and jump through it. -/
def jumpThrough (value : Half) : BusOps Unit where
  read address _ _ :=
    { bus := ()
      value :=
        if address = 0xbfc00000 then 0x34010000 ||| value.setWidth 32
        else if address = 0xbfc00004 then 0x00200008
        else 0 }
  write _ _ _ _ := ((), 0)

/-- The guest selects the store, writes a byte to it and stops. -/
def storeByte (failure : Option (List Byte)) : List I2c.Controller.Action :=
  [.bindImage (ascii "nvram") (some { image := fun _ => 0xff }),
    .write (fun _ _ => failure) 0x00 .word 0x9a,
    .write (fun _ _ => failure) 0x40 .word 0xa0,
    .write (fun _ _ => failure) 0x40 .word 0x00,
    .write (fun _ _ => failure) 0x40 .word 0x10,
    .write (fun _ _ => failure) 0x40 .word 0x5a,
    .write (fun _ _ => failure) 0x00 .word 0x99]

/-- The core when register one is loaded. -/
def loaded (value : Half) : Core Unit :=
  { Cpu.new () 0xbfc00004 with
    gpr := Function.update (Function.update (fun _ => 0) 1 (value.setWidth 32)) 0 0
    cop0 := Function.update (fun _ => 0) 9 1 }

/-- The core in the delay slot of the jump. -/
def jumping (value : Half) (isa : Bool) : Core Unit :=
  { loaded value with
    pc := 0xbfc00008
    gpr := Function.update (loaded value).gpr 0 0
    cop0 := Function.update (loaded value).cop0 9 2
    delayed := { target := value.setWidth 32 &&& ~~~1, «from» := 0xbfc00004, isa, armed := true } }

theorem step_loads_three :
    (Cpu.new () 0xbfc00000).perform (jumpThrough 3) (.step none) = loaded 3 :=
  rfl

theorem step_jumps_three : (loaded 3).perform (jumpThrough 3) (.step none) = jumping 3 true :=
  rfl

/-- A step without a boundary pump is aligned if its instruction's jump lands. -/
theorem stepAligned_of_jump {ops : BusOps Unit} {c : Core Unit} {value : Option Word}
    (jump : (c.beginStep.acceptInterrupt none).1.jumpValue ops = value)
    (lands : ∀ v ∈ value, v &&& 3 ≠ 2) : c.StepAligned ops none where
  entry _ isPump := by cases isPump
  jump _ v isValue := lands v (jump.symm.trans isValue)

/-- A jump to a compressed routine lands. -/
theorem jumpThrough_three_lands :
    (Cpu.new () 0xbfc00000).RunsAligned (jumpThrough 3)
      [.step none, .step none, .step none] := by
  apply Core.RunsAligned.cons_step (@stepAligned_of_jump _ _ none rfl (by simp))
  rw [step_loads_three]
  apply Core.RunsAligned.cons_step (@stepAligned_of_jump _ _ (some 3) rfl (by simp))
  rw [step_jumps_three]
  apply Core.RunsAligned.cons_step _ .nil
  constructor
  · intro pump isPump
    cases isPump
  · intro notArmed
    have isArmed : ((jumping 3 true).beginStep.acceptInterrupt none).1.delayed.armed = true := rfl
    exact absurd (notArmed.symm.trans isArmed) (by decide)

theorem storeByte_short {failure : Option (List Byte)}
    (brief : ∀ error ∈ failure, error.length ≤ 256) :
    I2c.Controller.ShortFaults (storeByte failure) := by
  intro persist off size value member path store error failed
  have isHost : persist = fun _ _ => failure := by
    simp only [storeByte, List.mem_cons, List.not_mem_nil, or_false, reduceCtorEq, false_or,
      I2c.Controller.Action.write.injEq] at member
    rcases member with ⟨rfl, _⟩ | ⟨rfl, _⟩ | ⟨rfl, _⟩ | ⟨rfl, _⟩ | ⟨rfl, _⟩ | ⟨rfl, _⟩ <;> rfl
  rw [isHost] at failed
  exact brief error failed

theorem landing_program_restores_own_snapshots :
    (Cpu.new () 0xbfc00000).RunsAligned (jumpThrough 3) [.step none, .step none, .step none] ∧
      I2c.Controller.ShortFaults (storeByte (some (ascii "disk full"))) ∧
      ∃ blob, ((Cpu.new () 0xbfc00000).run (jumpThrough 3)
        [.step none, .step none, .step none]).snapshot = .ok blob := by
  have short : I2c.Controller.ShortFaults (storeByte (some (ascii "disk full"))) :=
    storeByte_short (by simp [ascii])
  obtain ⟨⟨blob, isBlob, -⟩, -⟩ :=
    owners_restore_own_snapshots (jumpThrough 3) () (by decide) _ jumpThrough_three_lands
      (some { image := fun _ => 0 }) true _ short {} [] {}
  exact ⟨jumpThrough_three_lands, short, blob, isBlob⟩

/-- The master after a store that could not be made durable. -/
def unsaved : I2c.Controller :=
  (I2c.Controller.run (storeByte (some (List.replicate 257 0x21)))
    ({ store := some { image := fun _ => 0 } }, {})).1

theorem unsaved_transferring : unsaved.Transferring where
  addressBytes := show ((2 : Byte)).toNat ≤ 2 by decide
  pointer := show ((17 : Half)).toNat < Eeprom.capacity by decide
  demod m isModel := by
    have unbound : unsaved.demod = none := rfl
    rw [unbound] at isModel
    cases isModel

theorem unsaved_fault : unsaved.fault = List.replicate 257 0x21 :=
  rfl

/-- A jump through a register to an address that is two past a word leaves a
core whose own snapshot is refused, and a long failure of the host leaves a
master whose own snapshot is. -/
theorem ownSnapshots_refused :
    (∃ blob, ((Cpu.new () 0xbfc00000).run (jumpThrough 2) [.step none, .step none]).snapshot =
        .ok blob ∧
      ((Cpu.new () 0xbfc00000).run (jumpThrough 2) [.step none, .step none]).restore blob =
        .error "cpu: restore: incompatible register state") ∧
    ∃ blob, unsaved.snapshot = .ok blob ∧
      unsaved.restore blob {} = .error "i2c: restore: invalid state" := by
  have first : (Cpu.new () 0xbfc00000).perform (jumpThrough 2) (.step none) = loaded 2 := rfl
  have second : (loaded 2).perform (jumpThrough 2) (.step none) = jumping 2 false := rfl
  have ran : (Cpu.new () 0xbfc00000).run (jumpThrough 2) [.step none, .step none] =
      jumping 2 false := by
    rw [Core.run, List.foldl_cons, List.foldl_cons, List.foldl_nil, first, second]
  have length : unsaved.fault.length = 257 := by
    rw [unsaved_fault, List.length_replicate]
  have faultFits : unsaved.fault.length < wordLimit := by
    rw [length]
    decide
  have payloadFits := I2c.Controller.encodeController_fits unsaved_transferring
    (by rw [length]; decide)
  constructor
  · refine ⟨_, Core.snapshot_eq _, ?_⟩
    rw [Core.restore_frame, ran, if_neg]
    decide +kernel
  · refine ⟨Writer.frame (ascii "i2c-master") 2 (I2c.Controller.encodeController unsaved), ?_, ?_⟩
    · rw [I2c.Controller.snapshot_eq_blob unsaved_transferring faultFits]
      exact Writer.blob_mk _ _ _ (by decide) payloadFits
    · rw [I2c.Controller.restore_blob unsaved_transferring faultFits payloadFits rfl rfl,
        if_neg (by rw [length]; decide)]

end GoRetroTv
