import GoRetroTv.BoardInterrupts
import GoRetroTv.SnapshotRecords
import Mathlib.Data.List.GetD

/-!
# The board's timer

`internal/device/hwtimer/timer.go`: channel zero's status and acknowledge
registers over an instruction-clock divider.  A pump pulses the line; only an
acknowledge, a reset and a restore set it to the level of the status register.
-/

namespace GoRetroTv

namespace Hwtimer

open Snapcodec Cpu

/-- `Size`: the window's length in bytes. -/
def windowSize : Nat :=
  0xe4

def irqMask : Word :=
  0x40

def periodInstructions : DoubleWord :=
  20000

def registerCount : Nat :=
  windowSize / 4

/-- A word of the register window. -/
abbrev Register := Fin registerCount

/-- The status register at `0xD0`. -/
def statusRegister : Register :=
  ⟨0xd0 / 4, by decide⟩

structure Timer where
  regs : Register → Word := fun _ => 0
  now : DoubleWord := 0
  next : DoubleWord := 0
  ticks : DoubleWord := 0
  armed : Bool := false

/-- The timer with its line to the board. -/
abbrev Attached := Timer × Irq.Wire

/-- The register at an offset, if a word starts there. -/
def register (off : Word) (size : Size) : Option Register :=
  if inside : off.toNat / 4 < registerCount then
    if size = .word ∧ off.toNat % 4 = 0 then some ⟨off.toNat / 4, inside⟩ else none
  else none

namespace Timer

def read (off : Word) (size : Size) (t : Timer) : Word :=
  match register off size with
  | some reg => t.regs reg
  | none => 0

def set (reg : Register) (value : Word) (t : Timer) : Timer :=
  { t with regs := Function.update t.regs reg value }

/-- The level `updateLine` drives. -/
def line (t : Timer) : Bool :=
  t.regs statusRegister &&& 1 != 0

def updateLine (wire : Irq.Wire) (t : Timer) : Attached :=
  (t, wire.setLine irqMask t.line)

def write (off : Word) (size : Size) (value : Word) (wire : Irq.Wire) (t : Timer) : Attached :=
  match register off size with
  | none => (t, wire)
  | some reg =>
      if off = 0xe0 then
        (t.set statusRegister (t.regs statusRegister &&& ~~~value)).updateLine wire
      else
        let t := t.set reg value
        if t.armed then (t, wire)
        else ({ t with armed := true, next := t.now + periodInstructions }, wire)

/-- `Pump`: count the deadlines that have passed and pulse the line. -/
def pump (now : DoubleWord) (wire : Irq.Wire) (t : Timer) : Attached :=
  let t := { t with now }
  if t.armed = false ∨ now < t.next then (t, wire)
  else
    let elapsed := (now - t.next) / periodInstructions + 1
    let t := { t with
      ticks := t.ticks + elapsed
      next := t.next + elapsed * periodInstructions }
    (t.set statusRegister (t.regs statusRegister ||| 1), wire.pulse irqMask)

/-- `Reset`. -/
def reset (wire : Irq.Wire) : Attached :=
  ({} : Timer).updateLine wire

def registers (t : Timer) : List Word :=
  List.ofFn t.regs

/-- The high and the low word of a count. -/
def halves (count : DoubleWord) : List Word :=
  [(count >>> 32).setWidth 32, count.setWidth 32]

def ofHalves (high low : Word) : DoubleWord :=
  high.setWidth 64 <<< 32 ||| low.setWidth 64

/-- The words of a snapshot. -/
def words (t : Timer) : List Word :=
  t.registers ++ (halves t.now ++ halves t.next ++ halves t.ticks ++ [if t.armed then 1 else 0])

def snapshot (t : Timer) : Except String (List Byte) :=
  newWriter (ascii "board-timer") 2 |>.words t.words |>.blob

def ofWords (words : List Word) : Timer :=
  let word (i : Nat) : Word := words.getD (registerCount + i) 0
  { regs := fun reg => words.getD reg 0
    now := ofHalves (word 0) (word 1)
    next := ofHalves (word 2) (word 3)
    ticks := ofHalves (word 4) (word 5)
    armed := word 6 == 1 }

def readSnapshot : Reading Timer := do
  let words ← Reading.words
  Reading.wrap "hwtimer: restore: " Reading.done
  Reading.require
    (decide (words.length = registerCount + 7 ∧ (words.getD (words.length - 1) 0).toNat ≤ 1))
    "hwtimer: restore: invalid state"
  return ofWords words

/-- What `Restore` reads. -/
def decode (blob : List Byte) : Except String Timer :=
  restoring blob (ascii "board-timer") 2 2 "hwtimer: restore: " readSnapshot

def restore (blob : List Byte) (wire : Irq.Wire) : Except String Attached := do
  let t ← decode blob
  return t.updateLine wire

@[simp]
theorem registers_length (t : Timer) : t.registers.length = registerCount :=
  List.length_ofFn

@[simp]
theorem words_length (t : Timer) : t.words.length = registerCount + 7 := by
  simp [words, halves]

theorem words_fit (t : Timer) : t.words.length < wordLimit := by
  rw [words_length]
  decide

theorem ofHalves_halves (count : DoubleWord) :
    ofHalves ((count >>> 32).setWidth 32) (count.setWidth 32) = count := by
  apply BitVec.eq_of_getLsbD_eq
  intro i inside
  simp only [ofHalves, BitVec.getLsbD_or, BitVec.getLsbD_shiftLeft, BitVec.getLsbD_setWidth,
    BitVec.getLsbD_ushiftRight]
  by_cases low : i < 32
  · simp [low, inside]
  · have high : 32 + (i - 32) = i := by omega
    have room : i - 32 < 32 := by omega
    have wide : i - 32 < 64 := by omega
    simp [low, inside, high, room, wide]

theorem words_register (t : Timer) (reg : Register) : t.words.getD reg 0 = t.regs reg := by
  rw [words, List.getD_append _ _ _ _ (by rw [registers_length]; exact reg.isLt),
    List.getD_eq_getElem?_getD, registers, List.getElem?_ofFn, dif_pos reg.isLt]
  rfl

theorem words_rest (t : Timer) (i : Nat) :
    t.words.getD (registerCount + i) 0 =
      (halves t.now ++ halves t.next ++ halves t.ticks ++ [if t.armed then 1 else 0]).getD i 0 := by
  rw [words, List.getD_append_right _ _ _ _ (by rw [registers_length]; omega), registers_length,
    Nat.add_sub_cancel_left]

theorem ofWords_words (t : Timer) : ofWords t.words = t := by
  obtain ⟨regs, now, next, ticks, armed⟩ := t
  simp only [ofWords, words_rest, words_register]
  congr
  · exact ofHalves_halves now
  · exact ofHalves_halves next
  · exact ofHalves_halves ticks
  · cases armed <;> rfl

def blobOf (t : Timer) : List Byte :=
  Writer.frame (ascii "board-timer") 2 (encodeWords t.words)

theorem encodeWords_fits (t : Timer) : (encodeWords t.words).length < wordLimit := by
  rw [encodeWords_length, words_length]
  decide

theorem snapshot_eq (t : Timer) : t.snapshot = .ok (blobOf t) := by
  rw [snapshot, newWriter_eq 2 (show ascii "board-timer" ≠ [] by decide) (by decide),
    Writer.words_mk _ _ _ (words_fit t), List.nil_append]
  exact Writer.blob_mk _ _ _ (by decide) (encodeWords_fits t)

/-- The timer accepts its own snapshot, and every register of it comes back. -/
theorem decode_blobOf (t : Timer) : decode (blobOf t) = .ok t := by
  refine restoring_frame (by decide) (encodeWords_fits t) (by decide) (by decide) ?_
  unfold readSnapshot
  apply Parses.bind_last (.words (words_fit t))
  apply Parses.wrapDone
  apply Parses.require
  · rw [decide_eq_true_iff, words_length]
    refine ⟨rfl, ?_⟩
    have last : t.words.getD (registerCount + 6) 0 = if t.armed then 1 else 0 :=
      (t.words_rest 6).trans rfl
    rw [show registerCount + 7 - 1 = registerCount + 6 from rfl, last]
    split <;> decide
  rw [ofWords_words]
  exact Parses.pure [] t

end Timer

end Hwtimer

end GoRetroTv
